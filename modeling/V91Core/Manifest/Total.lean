import V91Core.Manifest.RoundTrip

namespace V91Core.Manifest

open V91Core.Python V91Core.Store

variable (rt : Runtime) (ed : Ed25519)

section Signature

variable (entries : List (PyData × PyData))

-- The document has a signature that can be looked at: the right algorithm, and a text
-- of the right length.
def Carries : Prop :=
  ∃ signature value, PyData.get? signatureKey entries = some signature ∧ readSignature signature = .ok value

-- The signature of the document is good for exactly its other fields.
def SignedBy (key : Bytes) : Prop :=
  ∃ signature value bytes message, PyData.get? signatureKey entries = some signature ∧
    readSignature signature = .ok value ∧ fromHex value = some bytes ∧ key.length = 32 ∧
    canonicalRecordBytes rt (PyData.erase signatureKey entries) = .ok message ∧ ed.verify key bytes message = true

theorem SignedBy.carries (key : Bytes) (h : SignedBy rt ed entries key) : Carries entries := by
  obtain ⟨signature, value, bytes, message, hget, hread, -⟩ := h
  exact ⟨signature, value, hget, hread⟩

theorem checkSignatureValue_iff (value : PyStr) (key : Bytes) :
    checkSignatureValue rt ed entries value (.bytes key) = .ok true ↔
      ∃ bytes message, fromHex value = some bytes ∧ key.length = 32 ∧
        canonicalRecordBytes rt entries = .ok message ∧ ed.verify key bytes message = true := by
  by_cases hlength : key.length = 32
  · cases hhex : fromHex value with
    | none => simp [checkSignatureValue, hlength, hhex, ofOption, bind, Except.bind]
    | some bytes =>
        cases hmessage : canonicalRecordBytes rt entries <;>
          simp [checkSignatureValue, hlength, hhex, hmessage, ofOption, bind, Except.bind]
  · simp [checkSignatureValue, hlength, bind, Except.bind]

theorem signedBy_iff (key : Bytes) (signature : PyData) (value : PyStr)
    (hget : PyData.get? signatureKey entries = some signature) (hread : readSignature signature = .ok value) :
    SignedBy rt ed entries key ↔
      checkSignatureValue rt ed (PyData.erase signatureKey entries) value (.bytes key) = .ok true := by
  rw [checkSignatureValue_iff]
  constructor
  · rintro ⟨signature', value', bytes, message, hget', hread', hrest⟩
    obtain rfl := Option.some.inj (hget.symm.trans hget')
    obtain rfl := Except.ok.inj (hread.symm.trans hread')
    exact ⟨bytes, message, hrest⟩
  · rintro ⟨bytes, message, hrest⟩
    exact ⟨signature, value, bytes, message, hget, hread, hrest⟩

end Signature

section Unsigned

variable (entries : List (PyData × PyData))

theorem required_ne_signature : ∀ key ∈ requiredTopLevel, key ≠ signatureKey := by decide

theorem present_erase_iff :
    (∀ key ∈ requiredTopLevel, (PyData.get? key (PyData.erase signatureKey entries)).isSome = true) ↔
      ∀ key ∈ requiredTopLevel, (PyData.get? key entries).isSome = true := by
  refine forall₂_congr fun key hkey => ?_
  rw [PyData.get?_erase_of_ne _ _ _ (required_ne_signature key hkey)]

-- Only the required fields are looked at.
theorem WellFormed.congr (entries others : List (PyData × PyData))
    (hfields : ∀ key ∈ requiredTopLevel, PyData.get? key entries = PyData.get? key others)
    (h : WellFormed rt entries) : WellFormed rt others := by
  have hfield : ∀ key ∈ requiredTopLevel, fieldOf entries key = fieldOf others key :=
    fun key hkey => congrArg (·.getD PyData.none) (hfields key hkey)
  have htexts : ∀ key ∈ textFields, key ∈ requiredTopLevel := by decide
  have hversion := hfield (py "schema_version") (by decide)
  have hissued := hfield (py "issued_at") (by decide)
  have hexpires := hfield (py "expires_at") (by decide)
  have hresources := hfield (py "resources") (by decide)
  have hcontributions := hfield (py "contributions") (by decide)
  exact {
    present := fun key hkey => hfields key hkey ▸ h.present key hkey
    version := hversion ▸ h.version
    texts := fun key hkey => hfield key (htexts key hkey) ▸ h.texts key hkey
    issued := hissued ▸ h.issued
    expires := hexpires ▸ h.expires
    resources := hresources ▸ h.resources
    contributions := hcontributions ▸ h.contributions }

theorem wellFormed_erase_iff : WellFormed rt (PyData.erase signatureKey entries) ↔ WellFormed rt entries := by
  have hfields : ∀ key ∈ requiredTopLevel,
      PyData.get? key (PyData.erase signatureKey entries) = PyData.get? key entries :=
    fun key hkey => PyData.get?_erase_of_ne _ _ _ (required_ne_signature key hkey)
  exact ⟨WellFormed.congr rt _ _ hfields, WellFormed.congr rt _ _ fun key hkey => (hfields key hkey).symm⟩

end Unsigned

section Verdict

variable (key : Bytes) (now : PyData) (t : Int) (revokedNodeIds revokedKeyIds : Option (List PyStr))

-- What the checks of the code amount to.
structure Valid (entries : List (PyData × PyData)) : Prop where
  wellFormed : WellFormed rt entries
  signed : SignedBy rt ed entries key
  inForce : InForce rt t revokedNodeIds revokedKeyIds entries

variable (entries : List (PyData × PyData))

theorem verifyManifest_carried (signature : PyData) (value : PyStr)
    (hget : PyData.get? signatureKey entries = some signature) (hread : readSignature signature = .ok value)
    (publicKey : PyData) :
    verifyManifest rt ed (.dict entries) publicKey now revokedNodeIds revokedKeyIds =
      match validateStructure rt (PyData.erase signatureKey entries) with
      | .error (.manifestError msg) => .ok (false, py "structural validation failed: " ++ msg)
      | .error e => .error e
      | .ok () =>
          match checkSignatureValue rt ed (PyData.erase signatureKey entries) value publicKey with
          | .ok true => checkFreshness rt entries now revokedNodeIds revokedKeyIds
          | _ => .ok (false, py "signature verification failed") := by
  have hverify := verifyManifest.eq_def rt ed (.dict entries) publicKey now revokedNodeIds revokedKeyIds
  simp only [hget, hread] at hverify
  exact hverify

theorem reports_false (result : Except PyExc (Bool × PyStr)) (reason : PyStr) (p : Prop)
    (hresult : result = .ok (false, reason)) (hp : ¬p) : Reports result p :=
  ⟨false, reason, hresult, by simp [hp]⟩

-- The verdict is exact where the structural checks raise nothing but their own error.
theorem verify_reports (hnow : parseInstant rt now = .ok t)
    (h : Carries entries → Structural (validateStructure rt (PyData.erase signatureKey entries))) :
    Reports (verifyManifest rt ed (.dict entries) (.bytes key) now revokedNodeIds revokedKeyIds)
      (Valid rt ed key t revokedNodeIds revokedKeyIds entries) := by
  by_cases hcarries : Carries entries
  · obtain ⟨signature, value, hget, hread⟩ := hcarries
    have hsigned := signedBy_iff rt ed entries key signature value hget hread
    rw [verifyManifest_carried rt ed now revokedNodeIds revokedKeyIds entries signature value hget hread]
    cases hvalid : validateStructure rt (PyData.erase signatureKey entries) with
    | error e =>
        obtain ⟨msg, rfl⟩ := h ⟨signature, value, hget, hread⟩ e hvalid
        refine reports_false _ _ _ rfl fun hp => ?_
        rw [(validateStructure_eq_ok () rt _).mpr ((wellFormed_erase_iff rt entries).mpr hp.wellFormed)] at hvalid
        cases hvalid
    | ok done =>
        have hwell := (wellFormed_erase_iff rt entries).mp ((validateStructure_eq_ok () rt _).mp hvalid)
        by_cases hcheck : checkSignatureValue rt ed (PyData.erase signatureKey entries) value (.bytes key) = .ok true
        · obtain ⟨valid, reason, hfresh, hiff⟩ :=
            checkFreshness_reports rt t revokedNodeIds revokedKeyIds entries hwell now hnow
          refine ⟨valid, reason, ?_, hiff.trans ⟨fun hforce => ⟨hwell, hsigned.mpr hcheck, hforce⟩,
            fun hp => hp.inForce⟩⟩
          simp only [hcheck, hfresh]
        · refine reports_false _ (py "signature verification failed") _ ?_ fun hp => hcheck (hsigned.mp hp.signed)
          dsimp only
          split
          · next htrue => exact absurd htrue hcheck
          · rfl
  · have hnot : ¬Valid rt ed key t revokedNodeIds revokedKeyIds entries :=
      fun hp => hcarries (SignedBy.carries rt ed entries key hp.signed)
    cases hget : PyData.get? signatureKey entries with
    | none => exact reports_false _ (py "manifest carries no signature") _ (by simp only [verifyManifest, hget]) hnot
    | some signature =>
        cases hread : readSignature signature with
        | error reason => exact reports_false _ reason _ (by simp only [verifyManifest, hget, hread]) hnot
        | ok value => exact absurd ⟨signature, value, hget, hread⟩ hcarries

theorem verify_raises (hcarries : Carries entries)
    (h : ¬Structural (validateStructure rt (PyData.erase signatureKey entries))) (verdict : Bool × PyStr) :
    verifyManifest rt ed (.dict entries) (.bytes key) now revokedNodeIds revokedKeyIds ≠ .ok verdict := by
  obtain ⟨signature, value, hget, hread⟩ := hcarries
  rw [verifyManifest_carried rt ed now revokedNodeIds revokedKeyIds entries signature value hget hread]
  intro hok
  apply h
  intro e he
  rw [he] at hok
  cases e with
  | manifestError msg => exact ⟨msg, rfl⟩
  | _ => cases hok

end Verdict

section Resources

-- A number that is at least zero.
def isNonNegative (value : PyData) : Bool :=
  match value.number? with
  | some n => PyNum.le (.int 0) n
  | none => false

def isNan (value : PyData) : Bool :=
  match value.number? with
  | some n => n.value.isNone
  | none => false

-- NaN is not below zero, and that is all the check asks.
theorem isAmount_eq (value : PyData) : isAmount value = (isNonNegative value || isNan value) := by
  unfold isAmount isNonNegative isNan
  cases value.number? with
  | none => rfl
  | some n =>
      cases hvalue : n.value with
      | none => simp [PyNum.lt, PyNum.le, hvalue]
      | some p =>
          have hzero : PyNum.value (.int 0) = some 0 := by
            rw [PyNum.value, Int.cast_zero]
            rfl
          simp only [PyNum.lt, PyNum.le, hvalue, hzero, Option.isNone_some, Bool.or_false, ← not_le, decide_not,
            Bool.not_not]

-- One of the required resources is NaN.
def NanResource (entries : List (PyData × PyData)) : Prop :=
  ∃ resources value, fieldOf entries (py "resources") = .dict resources ∧
    ∃ key ∈ requiredResources, PyData.get? key resources = some value ∧ isNan value = true

theorem isNonNegative_of_isNan (value : PyData) (h : isNan value = true) : isNonNegative value = false := by
  unfold isNan at h
  unfold isNonNegative
  cases hnumber : value.number? with
  | none => rfl
  | some n =>
      simp only [hnumber, Option.isNone_iff_eq_none] at h
      simp [PyNum.le, h]

theorem nonNegative_iff (entries : List (PyData × PyData))
    (h : Group requiredResources isAmount (fieldOf entries (py "resources"))) :
    Group requiredResources isNonNegative (fieldOf entries (py "resources")) ↔ ¬NanResource entries := by
  obtain ⟨resources, hresources, hamounts⟩ := h
  constructor
  · rintro ⟨resources', hresources', hall⟩ ⟨resources'', value, hresources'', key, hkey, hget, hnan⟩
    obtain rfl := PyData.dict.inj (hresources'.symm.trans hresources'')
    obtain ⟨value', hget', hnonneg⟩ := hall key hkey
    obtain rfl := Option.some.inj (hget.symm.trans hget')
    rw [isNonNegative_of_isNan _ hnan] at hnonneg
    cases hnonneg
  · intro hnan
    refine ⟨resources, hresources, fun key hkey => ?_⟩
    obtain ⟨value, hget, hamount⟩ := hamounts key hkey
    refine ⟨value, hget, ?_⟩
    rw [isAmount_eq, Bool.or_eq_true] at hamount
    exact hamount.resolve_right fun hbad => hnan ⟨resources, value, hresources, key, hkey, hget, hbad⟩

end Resources

section Main

variable (key : Bytes) (now : PyData) (t : Int) (revokedNodeIds revokedKeyIds : Option (List PyStr))

-- What a verified manifest is taken for.
structure Evidence (entries : List (PyData × PyData)) : Prop where
  wellFormed : WellFormed rt entries
  resources : Group requiredResources isNonNegative (fieldOf entries (py "resources"))
  signed : SignedBy rt ed entries key
  inForce : InForce rt t revokedNodeIds revokedKeyIds entries

-- A document that gets as far as its version has version 1, or one that a message can show.
def VersionReadable (j : Json) : Prop :=
  ∀ fields, j = .obj fields → Carries (PyData.ofFields fields) →
    (∀ key ∈ requiredTopLevel, (Json.lookup key fields).isSome = true) →
      (PyData.ofJson ((Json.lookup (py "schema_version") fields).getD .null)).eqInt 1 = true ∨
        Json.Fits true rt.nesting ((Json.lookup (py "schema_version") fields).getD .null)

theorem structural_erase_iff (fields : List (PyStr × Json)) :
    Structural (validateStructure rt (PyData.erase signatureKey (PyData.ofFields fields))) ↔
      ((∀ key ∈ requiredTopLevel, (Json.lookup key fields).isSome = true) →
        (PyData.ofJson ((Json.lookup (py "schema_version") fields).getD .null)).eqInt 1 = true ∨
          Json.Fits true rt.nesting ((Json.lookup (py "schema_version") fields).getD .null)) := by
  rw [structural_validate_iff, present_erase_iff, fieldOf_erase _ _ (by decide), fieldOf_ofFields,
    structural_checkVersion_iff]
  refine imp_congr (forall₂_congr fun key _ => ?_) Iff.rfl
  rw [PyData.get?_ofFields, Option.isSome_map]

-- Verification always answers, and is right when it answers yes, exactly for the
-- documents whose version can be shown and that are not signed with a NaN resource.
theorem verify_total_sound_iff (j : Json) (hnow : parseInstant rt now = .ok t) :
    let verify := verifyManifest rt ed (.ofJson j) (.bytes key) now revokedNodeIds revokedKeyIds
    ((∃ valid reason, verify = .ok (valid, reason)) ∧
      ∀ reason, verify = .ok (true, reason) → ∃ entries, PyData.ofJson j = .dict entries ∧
        Evidence rt ed key t revokedNodeIds revokedKeyIds entries) ↔
    VersionReadable rt j ∧ ∀ entries, PyData.ofJson j = .dict entries →
      Valid rt ed key t revokedNodeIds revokedKeyIds entries → ¬NanResource entries := by
  intro verify
  cases j with
  | obj fields =>
      have hdict : PyData.ofJson (.obj fields) = .dict (PyData.ofFields fields) := rfl
      have hreadable : VersionReadable rt (.obj fields) ↔ (Carries (PyData.ofFields fields) →
          Structural (validateStructure rt (PyData.erase signatureKey (PyData.ofFields fields)))) := by
        simp only [VersionReadable, Json.obj.injEq, forall_eq', structural_erase_iff]
      simp only [hdict, PyData.dict.injEq, exists_eq_left', forall_eq'] at verify ⊢
      rw [hreadable]
      by_cases h : Carries (PyData.ofFields fields) →
          Structural (validateStructure rt (PyData.erase signatureKey (PyData.ofFields fields)))
      · obtain ⟨valid, reason, hverify, hiff⟩ :=
          verify_reports rt ed key now t revokedNodeIds revokedKeyIds (PyData.ofFields fields) hnow h
        refine ⟨fun hsound => ⟨h, fun hvalid => ?_⟩, fun hcond => ⟨⟨valid, reason, hverify⟩, fun reason' htrue => ?_⟩⟩
        · have hevidence := hsound.2 reason (by rw [← hiff.mpr hvalid]; exact hverify)
          exact (nonNegative_iff _ hvalid.wellFormed.resources).mp hevidence.resources
        · have hvalid := hiff.mp (Prod.ext_iff.mp (Except.ok.inj (hverify.symm.trans htrue))).1
          have hnonneg := (nonNegative_iff _ hvalid.wellFormed.resources).mpr (hcond.2 hvalid)
          exact ⟨hvalid.wellFormed, hnonneg, hvalid.signed, hvalid.inForce⟩
      · refine iff_of_false ?_ fun hcond => h hcond.1
        rintro ⟨⟨valid, reason, hverify⟩, -⟩
        obtain ⟨hcarries, hraises⟩ := Classical.not_imp.mp h
        exact verify_raises rt ed key now revokedNodeIds revokedKeyIds _ hcarries hraises _ hverify
  | _ =>
      refine iff_of_true ⟨⟨false, _, rfl⟩, ?_⟩ ⟨?_, ?_⟩
      · intro reason h
        cases (Prod.ext_iff.mp (Except.ok.inj h)).1
      · intro fields h
        cases h
      · intro entries h
        cases h

theorem verify_total_sound_sample :
    let verify := verifyManifest sampleRuntime sampleEd
      (.ofJson (withSignature (sampleManifest 8) sampleSignature).json) (.bytes samplePublic)
      (.str (py "2026-11-07T12:00:00+00:00")) none none
    ((∃ valid reason, verify = .ok (valid, reason)) ∧
      ∀ reason, verify = .ok (true, reason) → ∃ entries,
        PyData.ofJson (withSignature (sampleManifest 8) sampleSignature).json = .dict entries ∧
          Evidence sampleRuntime sampleEd samplePublic 63929736000000000 none none entries) := by
  refine (verify_total_sound_iff sampleRuntime sampleEd samplePublic (.str (py "2026-11-07T12:00:00+00:00"))
    63929736000000000 none none _ (by decide +kernel)).mpr ⟨?_, ?_⟩
  · intro fields hfields _ _
    obtain rfl := Json.obj.inj hfields
    exact .inl (by decide +kernel)
  · rintro entries hentries - ⟨resources, value, hresources, key, hkey, hget, hnan⟩
    obtain rfl := PyData.dict.inj hentries
    obtain rfl := PyData.dict.inj hresources
    have hall : ∀ key ∈ requiredResources,
        ((PyData.get? key (PyData.ofFields [(py "cpu_cores_available", .int (8 : Nat)),
          (py "ram_mb_available", .int 16000),
          (py "vram_mb_available", .int 0), (py "disk_mb_available", .int 500000)])).map isNan) = some false := by
      decide +kernel
    have hfalse := hall key hkey
    rw [hget, Option.map_some, hnan] at hfalse
    cases hfalse

-- 10 ** 4300 is the least power of ten without a text.
theorem long_version_unanswered :
    let verify := verifyManifest sampleRuntime sampleEd
      (.ofJson (.obj (Json.insert (py "schema_version") (.int ((10 ^ 4300 : Nat) : Int))
        (withSignature (sampleManifest 8) sampleSignature).fields))) (.bytes samplePublic)
      (.str (py "2026-11-07T12:00:00+00:00")) none none
    parseInstant sampleRuntime (.str (py "2026-11-07T12:00:00+00:00")) = .ok 63929736000000000 ∧
      ¬((∃ valid reason, verify = .ok (valid, reason)) ∧
        ∀ reason, verify = .ok (true, reason) → ∃ entries,
          PyData.ofJson (.obj (Json.insert (py "schema_version") (.int ((10 ^ 4300 : Nat) : Int))
            (withSignature (sampleManifest 8) sampleSignature).fields)) = .dict entries ∧
            Evidence sampleRuntime sampleEd samplePublic 63929736000000000 none none entries) := by
  refine ⟨by decide +kernel, fun h => ?_⟩
  obtain ⟨⟨valid, reason, hverify⟩, -⟩ := h
  have hne : ∀ k, k ≠ 0 → ((10 ^ k : Nat) : Int) ≠ 1 := by
    intro k hk
    rw [Ne, Nat.cast_eq_one]
    exact (Nat.one_lt_pow hk (by decide)).ne'
  have hraises := verify_unshown _ (hne 4300 (by decide)) _ (intRepr_pow 4300 (by decide)) (by simp)
    (.bytes samplePublic) (.str (py "2026-11-07T12:00:00+00:00"))
  rw [sampleSigned, insert_signature] at hraises
  rw [PyData.ofJson, ← PyData.insert_ofFields] at hverify
  rw [show PyData.ofJson (.int ((10 ^ 4300 : Nat) : Int)) = .int ((10 ^ 4300 : Nat) : Int) from rfl] at hverify
  rw [hraises] at hverify
  cases hverify

end Main

end V91Core.Manifest
