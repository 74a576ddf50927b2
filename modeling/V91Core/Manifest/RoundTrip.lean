import V91Core.Manifest.Structure

namespace V91Core.Manifest

open V91Core.Python V91Core.Store

variable (rt : Runtime) (ed : Ed25519)

section Sign

theorem signingKey_eq_ok (key signingKey' : Bytes) :
    signingKey (.bytes key) = .ok signingKey' ↔ key.length = 32 ∧ signingKey' = key := by
  rw [signingKey]
  split
  · next hlength => simp [hlength, eq_comm]
  · next hlength => simp [hlength, invalid]

-- What is signed, and what the signed manifest is.
theorem signManifest_eq_ok (entries signed : List (PyData × PyData)) (key : Bytes) :
    signManifest rt ed (.dict entries) (.bytes key) = .ok signed ↔
      PyData.get? signatureKey entries = none ∧ WellFormed rt entries ∧ key.length = 32 ∧
        ∃ message, canonicalRecordBytes rt entries = .ok message ∧
          signed = PyData.insert signatureKey (signatureObject (ed.sign key message)) entries := by
  rw [signManifest]
  by_cases hfield : (PyData.get? signatureKey entries).isSome = true
  · rw [if_pos hfield]
    simp [Option.ne_none_iff_isSome.mpr hfield, invalid]
  · rw [if_neg hfield]
    simp only [Option.not_isSome_iff_eq_none] at hfield
    simp only [hfield, bind_eq_ok, validateStructure_eq_ok, signingKey_eq_ok, Except.ok.injEq, exists_const,
      true_and]
    constructor
    · rintro ⟨hwell, _, ⟨hlength, rfl⟩, message, hmessage, rfl⟩
      exact ⟨hwell, hlength, message, hmessage, rfl⟩
    · rintro ⟨hwell, hlength, message, hmessage, rfl⟩
      exact ⟨hwell, key, ⟨hlength, rfl⟩, message, hmessage, rfl⟩

end Sign

section Verify

variable (publicKey now : PyData) (revokedNodeIds revokedKeyIds : Option (List PyStr))

theorem readSignature_signatureObject (signature : Bytes) (hlength : signature.length = 64) :
    readSignature (signatureObject signature) = .ok (bytesHex signature) := by
  have halgorithm : fieldOf [(.str (py "algorithm"), .str signatureAlgorithm),
      (.str (py "value"), .str (bytesHex signature))] (py "algorithm") = .str signatureAlgorithm := by rfl
  have hvalue : fieldOf [(.str (py "algorithm"), .str signatureAlgorithm),
      (.str (py "value"), .str (bytesHex signature))] (py "value") = .str (bytesHex signature) := by rfl
  rw [signatureObject, readSignature, halgorithm, hvalue]
  simp [PyData.isStr, bytesHex_length, hlength]

theorem checkSignatureValue_eq_ok (unsigned : List (PyData × PyData)) (signature key : Bytes) :
    checkSignatureValue rt ed unsigned (bytesHex signature) (.bytes key) = .ok true ↔
      key.length = 32 ∧ ∃ message, canonicalRecordBytes rt unsigned = .ok message ∧
        ed.verify key signature message = true := by
  by_cases hlength : key.length = 32
  · cases hmessage : canonicalRecordBytes rt unsigned <;>
      simp [checkSignatureValue, hlength, fromHex_bytesHex, ofOption, hmessage, bind, Except.bind]
  · simp [checkSignatureValue, hlength, bind, Except.bind]

-- A document with a signature object is judged by its structure, then by its signature.
theorem verifyManifest_eq (entries : List (PyData × PyData)) (signature : Bytes) (hlength : signature.length = 64)
    (hsignature : PyData.get? signatureKey entries = some (signatureObject signature)) :
    verifyManifest rt ed (.dict entries) publicKey now revokedNodeIds revokedKeyIds =
      match validateStructure rt (PyData.erase signatureKey entries) with
      | .error (.manifestError msg) => .ok (false, py "structural validation failed: " ++ msg)
      | .error e => .error e
      | .ok () =>
          match checkSignatureValue rt ed (PyData.erase signatureKey entries) (bytesHex signature) publicKey with
          | .ok true => checkFreshness rt entries now revokedNodeIds revokedKeyIds
          | _ => .ok (false, py "signature verification failed") := by
  have hverify := verifyManifest.eq_def rt ed (.dict entries) publicKey now revokedNodeIds revokedKeyIds
  simp only [hsignature, readSignature_signatureObject signature hlength] at hverify
  exact hverify

theorem fieldOf_erase (entries : List (PyData × PyData)) (key : PyStr) (h : key ≠ signatureKey) :
    fieldOf (PyData.erase signatureKey entries) key = fieldOf entries key := by
  rw [fieldOf, fieldOf, PyData.get?_erase_of_ne _ _ _ h]

theorem checkFreshness_erase (entries : List (PyData × PyData)) :
    checkFreshness rt (PyData.erase signatureKey entries) now revokedNodeIds revokedKeyIds =
      checkFreshness rt entries now revokedNodeIds revokedKeyIds := by
  simp only [checkFreshness, fieldOf_erase entries (py "issued_at") (by decide),
    fieldOf_erase entries (py "expires_at") (by decide), fieldOf_erase entries (py "node_id") (by decide),
    fieldOf_erase entries (py "key_id") (by decide)]

end Verify

section Freshness

variable (t : Int) (revokedNodeIds revokedKeyIds : Option (List PyStr))

-- The manifest holds at this instant, and neither of its ids is revoked.
def InForce (entries : List (PyData × PyData)) : Prop :=
  (∃ issued expires, parseInstant rt (fieldOf entries (py "issued_at")) = .ok issued ∧
    parseInstant rt (fieldOf entries (py "expires_at")) = .ok expires ∧ issued ≤ t ∧ t ≤ expires) ∧
  ∃ nodeId keyId, fieldOf entries (py "node_id") = .str nodeId ∧ fieldOf entries (py "key_id") = .str keyId ∧
    nodeId ∉ revokedNodeIds.getD [] ∧ keyId ∉ revokedKeyIds.getD []

theorem isRevoked_str (ids : Option (List PyStr)) (id : PyStr) :
    isRevoked ids (.str id) = .ok (decide (id ∈ ids.getD [])) := by
  cases ids with
  | none => rfl
  | some ids =>
      cases ids with
      | nil => rfl
      | cons first rest => rfl

theorem nonBlank?_isSome (value : PyData) (h : value.nonBlank?.isSome = true) : ∃ text, value = .str text := by
  cases value with
  | str text => exact ⟨text, rfl⟩
  | _ => cases h

-- The verdict that a computation returns is this proposition.
def Reports (result : Except PyExc (Bool × PyStr)) (p : Prop) : Prop :=
  ∃ valid reason, result = .ok (valid, reason) ∧ (valid = true ↔ p)

theorem checkFreshness_reports (entries : List (PyData × PyData)) (h : WellFormed rt entries) (now : PyData)
    (hnow : parseInstant rt now = .ok t) :
    Reports (checkFreshness rt entries now revokedNodeIds revokedKeyIds)
      (InForce rt t revokedNodeIds revokedKeyIds entries) := by
  obtain ⟨issued, hissued⟩ := h.issued
  obtain ⟨expires, hexpires⟩ := h.expires
  obtain ⟨nodeId, hnode⟩ := nonBlank?_isSome _ (h.texts (py "node_id") (by decide))
  obtain ⟨keyId, hkey⟩ := nonBlank?_isSome _ (h.texts (py "key_id") (by decide))
  have hforce : InForce rt t revokedNodeIds revokedKeyIds entries ↔
      (issued ≤ t ∧ t ≤ expires) ∧ nodeId ∉ revokedNodeIds.getD [] ∧ keyId ∉ revokedKeyIds.getD [] := by
    simp [InForce, hissued, hexpires, hnode, hkey]
  simp only [Reports, hforce, checkFreshness, hnow, hissued, hexpires, hnode, hkey, isRevoked_str, PyData.toStr,
    bind, Except.bind]
  by_cases hbefore : t < issued
  · rw [if_pos hbefore]
    refine ⟨false, _, rfl, iff_of_false (by simp) ?_⟩
    omega
  by_cases hafter : expires < t
  · rw [if_neg hbefore, if_pos hafter]
    refine ⟨false, _, rfl, iff_of_false (by simp) ?_⟩
    omega
  have hwindow : issued ≤ t ∧ t ≤ expires := by omega
  rw [if_neg hbefore, if_neg hafter]
  by_cases hnodes : nodeId ∈ revokedNodeIds.getD []
  · rw [if_pos (decide_eq_true hnodes)]
    exact ⟨false, _, rfl, by simp [hnodes]⟩
  rw [if_neg (by simpa using hnodes)]
  by_cases hkeys : keyId ∈ revokedKeyIds.getD []
  · rw [if_pos (decide_eq_true hkeys)]
    exact ⟨false, _, rfl, by simp [hkeys]⟩
  rw [if_neg (by simpa using hkeys)]
  exact ⟨true, _, rfl, by simp [hwindow, hnodes, hkeys]⟩

theorem inForce_congr (manifest other : Json.Dict) (hnorm : Json.norm manifest.json = Json.norm other.json) :
    InForce rt t revokedNodeIds revokedKeyIds (PyData.ofFields manifest.fields) ↔
      InForce rt t revokedNodeIds revokedKeyIds (PyData.ofFields other.fields) := by
  have hstr : ∀ text, Shallow fun value => value = PyData.str text := fun text =>
    shallow_of_const _ (by simp) (by simp)
  have htext := fun key text => check_eq manifest other hnorm (fun value => value = PyData.str text) (hstr text) key
  have hinstant := fun key => check_eq manifest other hnorm (parseInstant rt) (shallow_parseInstant rt) key
  simp only [InForce, hinstant, htext]

end Freshness

section Document

-- The manifest that was signed, its canonical bytes, and a document that carries
-- their signature.
variable (manifest : Json.Dict) (key message : Bytes)
  (hmessage : canonicalRecordBytes rt (PyData.ofFields manifest.fields) = .ok message)
  (document : Json.Dict)
  (hsignature : PyData.get? signatureKey (PyData.ofFields document.fields) =
    some (signatureObject (ed.sign key message)))
  (now : PyData) (revokedNodeIds revokedKeyIds : Option (List PyStr))

-- The document without its signature.
def unsigned (document : Json.Dict) : Json.Dict :=
  ⟨Json.erase signatureKey document.fields, Json.wf_erase signatureKey document.fields document.wf⟩

include hmessage in
theorem canonical_unsigned (hnorm : Json.norm manifest.json = Json.norm (unsigned document).json) :
    canonicalRecordBytes rt (PyData.ofFields (unsigned document).fields) = .ok message := by
  have hencode := Json.encode_congr .canonical rfl rt.nesting _ _ hnorm
  rw [canonicalRecordBytes_ofFields] at hmessage ⊢
  simp only [dumps] at hmessage ⊢
  rw [← Json.Dict.json, ← hencode]
  exact hmessage

include hmessage hsignature

-- A document with the same content is reported as in force when it is.
theorem verify_genuine (hwell : WellFormed rt (PyData.ofFields manifest.fields))
    (hnorm : Json.norm manifest.json = Json.norm (unsigned document).json)
    (hverify : ed.verify (ed.publicKey key) (ed.sign key message) message = true) (t : Int)
    (hnow : parseInstant rt now = .ok t) :
    Reports (verifyManifest rt ed (.dict (PyData.ofFields document.fields)) (.bytes (ed.publicKey key)) now
        revokedNodeIds revokedKeyIds)
      (InForce rt t revokedNodeIds revokedKeyIds (PyData.ofFields manifest.fields)) := by
  have hunsigned : WellFormed rt (PyData.ofFields (unsigned document).fields) :=
    WellFormed.reorder rt manifest (unsigned document) hnorm hwell
  have hvalid := (validateStructure_eq_ok () rt _).mpr hunsigned
  have hcheck := (checkSignatureValue_eq_ok rt ed (PyData.ofFields (unsigned document).fields) _ _).mpr
    ⟨ed.publicKey_length key, message, canonical_unsigned rt manifest message hmessage document hnorm, hverify⟩
  rw [verifyManifest_eq rt ed _ _ _ _ _ _ (ed.sign_length key message) hsignature, ← checkFreshness_erase,
    PyData.erase_ofFields, inForce_congr rt t _ _ manifest (unsigned document) hnorm]
  rw [unsigned] at hvalid hcheck hunsigned ⊢
  simp only [hvalid, hcheck]
  exact checkFreshness_reports rt t _ _ _ hunsigned now hnow

-- A document with other content is refused, unless its validation raises an exception
-- that is not caught.
theorem verify_changed_iff (hchanged : Json.norm (unsigned document).json ≠ Json.norm manifest.json)
    (hexact : ∀ message', canonicalRecordBytes rt (PyData.ofFields (unsigned document).fields) = .ok message' →
      (ed.verify (ed.publicKey key) (ed.sign key message) message' = true ↔ message' = message)) :
    (∃ reason, verifyManifest rt ed (.dict (PyData.ofFields document.fields)) (.bytes (ed.publicKey key)) now
        revokedNodeIds revokedKeyIds = .ok (false, reason)) ↔
      Structural (validateStructure rt (PyData.ofFields (unsigned document).fields)) := by
  have hcheck : checkSignatureValue rt ed (PyData.ofFields (unsigned document).fields)
      (bytesHex (ed.sign key message)) (.bytes (ed.publicKey key)) ≠ .ok true := by
    rw [Ne, checkSignatureValue_eq_ok]
    rintro ⟨-, message', hmessage', hverify⟩
    obtain rfl := (hexact message' hmessage').mp hverify
    rw [canonicalRecordBytes_ofFields] at hmessage hmessage'
    exact hchanged (canonical_injective rt _ _ (unsigned document).wf manifest.wf message' hmessage' hmessage)
  rw [verifyManifest_eq rt ed _ _ _ _ _ _ (ed.sign_length key message) hsignature, PyData.erase_ofFields]
  rw [unsigned] at hcheck ⊢
  split
  · next msg herror =>
      rw [herror]
      exact iff_of_true ⟨_, rfl⟩ (structural_invalid msg)
  · next e hother herror =>
      rw [herror]
      refine iff_of_false (by simp) fun hstructural => ?_
      obtain ⟨msg, rfl⟩ := hstructural e rfl
      exact hother msg rfl
  · next hvalid =>
      rw [hvalid]
      refine iff_of_true ?_ (structural_ok ())
      split
      · next htrue => exact absurd htrue hcheck
      · exact ⟨_, rfl⟩

end Document

section Transport

def signatureJson (signature : Bytes) : Json :=
  .obj [(py "algorithm", .str signatureAlgorithm), (py "value", .str (bytesHex signature))]

-- The manifest with this signature in it, as JSON.
def withSignature (manifest : Json.Dict) (signature : Bytes) : Json.Dict where
  fields := Json.insert signatureKey (signatureJson signature) manifest.fields
  wf := by
    refine Json.wf_insert signatureKey (signatureJson signature) manifest.fields
      ⟨?_, trivial, trivial, trivial⟩ manifest.wf
    have hkeys : [py "algorithm", py "value"].Nodup := by decide
    exact hkeys

variable (manifest : Json.Dict) (signature : Bytes)

theorem insert_signature :
    PyData.insert signatureKey (signatureObject signature) (PyData.ofFields manifest.fields) =
      PyData.ofFields (withSignature manifest signature).fields :=
  PyData.insert_ofFields signatureKey (signatureJson signature) manifest.fields

theorem unsigned_withSignature (h : Json.lookup signatureKey manifest.fields = none) :
    unsigned (withSignature manifest signature) = manifest := by
  simp only [unsigned, withSignature, Json.erase_insert signatureKey (signatureJson signature) manifest.fields h]

theorem signatureJson_norm : Json.norm (signatureJson signature) = signatureJson signature := by
  have hsorted : Json.sortKeys [(py "algorithm", Json.str signatureAlgorithm),
      (py "value", Json.str (bytesHex signature))] = [(py "algorithm", Json.str signatureAlgorithm),
      (py "value", Json.str (bytesHex signature))] := by
    refine Json.sortKeys_sorted _ ?_
    have hle : strLe (py "algorithm") (py "value") = true := by decide
    simp [Json.KeyLe, hle]
  simp only [signatureJson, Json.norm, Json.normFields_eq, List.map_cons, List.map_nil, hsorted]

-- Signed manifests can be dumped by every style that writes `NaN`: only the nesting
-- of the signature itself needs a thought, and the resources are nested as deeply.
theorem withSignature_fits (hfits : Json.Fits true rt.nesting manifest.json)
    (hwell : WellFormed rt (PyData.ofFields manifest.fields)) :
    Json.Fits true rt.nesting (withSignature manifest signature).json := by
  obtain ⟨hpos, hfields⟩ := hfits
  refine ⟨hpos, (Json.fitsFields_iff _ _ _).mpr fun f hf => ?_⟩
  rcases Json.mem_insert _ _ _ f hf with rfl | hf
  · obtain ⟨entries, hentries, -⟩ := hwell.resources
    rw [fieldOf_ofFields] at hentries
    cases hlookup : Json.lookup (py "resources") manifest.fields with
    | none =>
        rw [hlookup] at hentries
        cases hentries
    | some resources =>
        rw [hlookup, Option.getD_some] at hentries
        have hresources := (Json.fitsFields_iff _ _ _).mp hfields _ (Json.mem_of_lookup _ _ _ hlookup)
        cases resources with
        | obj resources => exact ⟨hresources.1, trivial, trivial, trivial⟩
        | _ => cases hentries
  · exact (Json.fitsFields_iff _ _ _).mp hfields f hf

theorem withSignature_chars (hchars : Json.AllChars (fun c => c.isSurrogate = false) manifest.json) :
    Json.AllChars (fun c => c.isSurrogate = false) (withSignature manifest signature).json := by
  have hkey : isAscii signatureKey = true := by decide
  have hhex : isAscii (bytesHex signature) = true :=
    List.all_eq_true.mpr fun c hc => isAscii_of_isHexChar c (flatMap_hexByte_chars signature c hc)
  refine (Json.allCharsFields_iff _ _).mpr fun f hf => ?_
  rcases Json.mem_insert _ _ _ f hf with rfl | hf
  · exact ⟨ascii_encodable _ hkey, ascii_encodable _ (by decide), ascii_encodable _ (by decide),
      ascii_encodable _ (by decide), ascii_encodable _ hhex, trivial⟩
  · exact (Json.allCharsFields_iff _ _).mp hchars f hf

-- What is loaded has the same content, and the same signature object.
theorem loads_signed (h : Json.lookup signatureKey manifest.fields = none)
    (hchars : Json.AllChars (fun c => c.isSurrogate = false) manifest.json) (st : Json.Style) (text : PyStr)
    (hdumps : dumps rt st (withSignature manifest signature).json = .ok text) :
    ∃ document : Json.Dict, loadsText rt text = .ok document.json ∧
      Json.norm manifest.json = Json.norm (unsigned document).json ∧
      PyData.get? signatureKey (PyData.ofFields document.fields) = some (signatureObject signature) := by
  obtain ⟨document, hloads, horder⟩ :=
    Json.loads_dumps rt st _ (withSignature_chars manifest signature hchars) text hdumps
  have hnorm : Json.norm document.json = Json.norm (withSignature manifest signature).json := by
    rw [horder, Json.norm_order]
  have hlookup : Json.lookup signatureKey (withSignature manifest signature).fields = some (signatureJson signature) :=
    Json.lookup_insert_self _ _ _
  refine ⟨document, hloads, ?_, ?_⟩
  · rw [← congrArg (fun document : Json.Dict => Json.norm document.json) (unsigned_withSignature manifest signature h)]
    exact (Json.norm_erase_congr signatureKey _ _ hnorm).symm
  · by_cases hsorted : st.sortKeys = true
    · rw [Json.order, if_pos hsorted] at horder
      rw [Json.obj.inj horder, PyData.get?_ofFields, Json.lookup_norm _ _ (withSignature manifest signature).wf.1,
        hlookup, Option.map_some, signatureJson_norm]
      rfl
    · rw [Json.order, if_neg hsorted] at horder
      rw [Json.obj.inj horder, PyData.get?_ofFields, hlookup]
      rfl

end Transport

section Main

-- The message about an unsupported version, where it is needed, can be built.
def VersionShown (document : Json.Dict) : Prop :=
  (∀ key ∈ requiredTopLevel, (Json.lookup key document.fields).isSome = true) →
    (PyData.ofJson ((Json.lookup (py "schema_version") document.fields).getD .null)).eqInt 1 = true ∨
      Json.Fits true rt.nesting ((Json.lookup (py "schema_version") document.fields).getD .null)

theorem structural_unsigned_iff (document : Json.Dict) :
    Structural (validateStructure rt (PyData.ofFields (unsigned document).fields)) ↔ VersionShown rt document := by
  have hlookup : ∀ key ∈ requiredTopLevel,
      Json.lookup key (unsigned document).fields = Json.lookup key document.fields := by
    intro key hkey
    have hother : ∀ key ∈ requiredTopLevel, key ≠ signatureKey := by decide
    exact Json.lookup_erase key signatureKey document.fields (hother key hkey)
  rw [structural_validate_iff, fieldOf_ofFields, structural_checkVersion_iff, hlookup _ (by decide), VersionShown]
  refine imp_congr ?_ Iff.rfl
  refine forall₂_congr fun key hkey => ?_
  rw [PyData.get?_ofFields, Option.isSome_map, hlookup key hkey]

-- A signed manifest is reported as valid exactly when it is in force, also after a dump
-- and a load. With other content under the same signature it is refused, but for the
-- versions that cannot be shown.
theorem signed_manifest_iff (manifest : Json.Dict) (key : Bytes) (signed : List (PyData × PyData))
    (hsign : signManifest rt ed (.dict (PyData.ofFields manifest.fields)) (.bytes key) = .ok signed)
    (hed : ed.AcceptsExactly key {message | canonicalRecordBytes rt (PyData.ofFields manifest.fields) = .ok message})
    (now : PyData) (t : Int) (hnow : parseInstant rt now = .ok t) (revokedNodeIds revokedKeyIds : Option (List PyStr)) :
    let verify := fun document =>
      verifyManifest rt ed document (.bytes (ed.publicKey key)) now revokedNodeIds revokedKeyIds
    let inForce := InForce rt t revokedNodeIds revokedKeyIds (PyData.ofFields manifest.fields)
    Reports (verify (.dict signed)) inForce ∧
      (∀ st : Json.Style, st.allowNan = true → ∃ text, (PyData.dict signed).dumps rt st = .ok text) ∧
      (∀ (st : Json.Style) (text : PyStr), (PyData.dict signed).dumps rt st = .ok text →
        ∃ loaded, loadsText rt text = .ok loaded ∧ Reports (verify (.ofJson loaded)) inForce) ∧
      ∀ changed : Json.Dict,
        PyData.get? signatureKey (PyData.ofFields changed.fields) = PyData.get? signatureKey signed →
        Json.norm (unsigned changed).json ≠ Json.norm manifest.json →
        ed.AcceptsExactly key {message | canonicalRecordBytes rt (PyData.ofFields manifest.fields) = .ok message ∨
          canonicalRecordBytes rt (PyData.ofFields (unsigned changed).fields) = .ok message} →
        ((∃ reason, verify (.dict (PyData.ofFields changed.fields)) = .ok (false, reason)) ↔
          VersionShown rt changed) := by
  intro verify inForce
  obtain ⟨hnone, hwell, -, message, hmessage, rfl⟩ := (signManifest_eq_ok rt ed _ signed key).mp hsign
  have hverify : ed.verify (ed.publicKey key) (ed.sign key message) message = true :=
    (hed message hmessage message hmessage).mpr rfl
  rw [PyData.get?_ofFields, Option.map_eq_none_iff] at hnone
  obtain ⟨hfits, hchars⟩ : Json.Fits true rt.nesting manifest.json ∧
      Json.AllChars (fun c => c.isSurrogate = false) manifest.json := by
    refine (Json.dumps_utf8_isOk rt .canonical rfl manifest.json).mp ⟨message, ?_⟩
    rw [canonicalRecordBytes_ofFields] at hmessage
    exact hmessage
  have hget := PyData.get?_insert_self signatureKey (signatureObject (ed.sign key message))
    (PyData.ofFields manifest.fields)
  have hdict : (PyData.dict (PyData.ofFields (withSignature manifest (ed.sign key message)).fields)) =
      .ofJson (withSignature manifest (ed.sign key message)).json := rfl
  rw [insert_signature] at hget ⊢
  refine ⟨?_, ?_, ?_, ?_⟩
  · refine verify_genuine rt ed manifest key message hmessage _ hget now _ _ hwell ?_ hverify t hnow
    rw [unsigned_withSignature manifest _ hnone]
  · intro st hnan
    have hsigned := withSignature_fits rt manifest (ed.sign key message) hfits hwell
    rw [← hnan] at hsigned
    obtain ⟨text, htext⟩ := (Json.encode_isOk_iff st rt.nesting _).mpr hsigned
    refine ⟨text, ?_⟩
    rw [hdict, PyData.dumps_ofJson]
    exact (dumps_eq_ok rt st _ text).mpr htext
  · intro st text hdumps
    rw [hdict, PyData.dumps_ofJson] at hdumps
    obtain ⟨document, hloads, hnorm, hsignature⟩ := loads_signed rt manifest _ hnone hchars st text hdumps
    exact ⟨document.json, hloads,
      verify_genuine rt ed manifest key message hmessage document hsignature now _ _ hwell hnorm hverify t hnow⟩
  · intro changed hsignature hchanged hexact
    rw [hget] at hsignature
    rw [verify_changed_iff rt ed manifest key message hmessage changed hsignature now _ _ hchanged
      (fun message' hmessage' => hexact message (.inl hmessage) message' (.inr hmessage'))]
    exact structural_unsigned_iff rt changed

end Main

section Sample

def sampleRuntime : Runtime where
  sha256 _ := zeroDigest
  printable _ := true
  nesting := 100

def sampleFields (cores : Nat) : List (PyStr × Json) :=
  [(py "schema_version", .int 1), (py "node_id", .str (py "node-alpha")), (py "key_id", .str (py "key-1")),
    (py "software_version", .str (py "0.1.0")), (py "issued_at", .str (py "2026-11-07T10:00:00+00:00")),
    (py "expires_at", .str (py "2026-11-07T14:00:00+00:00")),
    (py "resources", .obj [(py "cpu_cores_available", .int cores), (py "ram_mb_available", .int 16000),
      (py "vram_mb_available", .int 0), (py "disk_mb_available", .int 500000)]),
    (py "contributions", .obj [(py "compute", .bool true), (py "verification", .bool true),
      (py "encrypted_storage", .bool false), (py "metadata_index", .bool false)]),
    (py "policy_version", .str (py "v1"))]

def sampleManifest (cores : Nat) : Json.Dict where
  fields := sampleFields cores
  wf := by
    have hkeys : ((sampleFields 0).map Prod.fst).Nodup := by decide +kernel
    have hresources : requiredResources.Nodup := by decide
    have hcontributions : requiredContributions.Nodup := by decide
    refine ⟨hkeys, ?_⟩
    simp only [Json.WfFields, sampleFields, Json.Wf, and_true, true_and]
    exact ⟨hresources, hcontributions⟩

def sampleMessage (cores : Nat) : Bytes :=
  (canonicalRecordBytes sampleRuntime (PyData.ofFields (sampleManifest cores).fields)).toOption.getD []

def sampleKey : Bytes := (List.range 32).map UInt8.ofNat

def samplePublic : Bytes :=
  [3, 161, 7, 191, 243, 206, 16, 190, 29, 112, 221, 24, 231, 75, 192, 153, 103, 228, 214, 48, 155, 165,
    13, 95, 29, 220, 134, 100, 18, 85, 49, 184]

-- The signature of the manifest with 8 cores, and that of the one with 999.
def sampleSignature : Bytes :=
  [142, 24, 101, 51, 25, 229, 181, 88, 141, 149, 60, 45, 139, 149, 70, 205, 200, 124, 249, 23, 44, 227,
    176, 151, 169, 182, 172, 36, 196, 211, 214, 19, 56, 111, 101, 158, 123, 76, 228, 105, 55, 3, 174, 170,
    184, 51, 12, 246, 170, 0, 186, 181, 110, 117, 163, 233, 33, 200, 46, 9, 35, 131, 204, 13]

def changedSignature : Bytes :=
  [197, 234, 158, 174, 185, 193, 171, 91, 66, 159, 247, 104, 206, 91, 134, 54, 88, 69, 221, 175, 28, 192,
    83, 167, 83, 225, 50, 71, 129, 36, 91, 35, 13, 6, 164, 177, 115, 136, 202, 183, 8, 145, 165, 237, 173,
    188, 119, 205, 20, 70, 147, 226, 54, 226, 99, 139, 116, 239, 102, 253, 30, 51, 155, 7]

-- The values that the signature scheme has on these two messages.
def sampleEd : Ed25519 where
  publicKey key := if key = sampleKey then samplePublic else List.replicate 32 0
  sign key message :=
    if key = sampleKey ∧ message = sampleMessage 8 then sampleSignature
    else if key = sampleKey ∧ message = sampleMessage 999 then changedSignature
    else List.replicate 64 0
  verify publicKey signature message :=
    publicKey = samplePublic ∧ (signature = sampleSignature ∧ message = sampleMessage 8 ∨
      signature = changedSignature ∧ message = sampleMessage 999)
  publicKey_length key := by
    split
    · decide +kernel
    · rfl
  sign_length key message := by
    split
    · decide +kernel
    · split
      · decide +kernel
      · rfl

def sampleSigned : List (PyData × PyData) :=
  PyData.insert signatureKey (signatureObject sampleSignature) (PyData.ofFields (sampleManifest 8).fields)

theorem sampleMessage_eq (cores : Nat) (h : cores = 8 ∨ cores = 999) :
    canonicalRecordBytes sampleRuntime (PyData.ofFields (sampleManifest cores).fields) =
      .ok (sampleMessage cores) := by
  have hok : (canonicalRecordBytes sampleRuntime (PyData.ofFields (sampleManifest cores).fields)).isOk = true := by
    rcases h with rfl | rfl
    · decide +kernel
    · decide +kernel
  unfold sampleMessage
  cases hbytes : canonicalRecordBytes sampleRuntime (PyData.ofFields (sampleManifest cores).fields) with
  | ok bytes => rfl
  | error e =>
      rw [hbytes] at hok
      cases hok

theorem sampleMessage_ne : sampleMessage 999 ≠ sampleMessage 8 := by decide +kernel

theorem sampleSigned_eq :
    signManifest sampleRuntime sampleEd (.dict (PyData.ofFields (sampleManifest 8).fields)) (.bytes sampleKey) =
      .ok sampleSigned := by
  have hwell : validateStructure sampleRuntime (PyData.ofFields (sampleManifest 8).fields) = .ok () := by
    decide +kernel
  rw [signManifest_eq_ok]
  refine ⟨by rfl, (validateStructure_eq_ok () sampleRuntime _).mp hwell, by decide, sampleMessage 8,
    sampleMessage_eq 8 (.inl rfl), ?_⟩
  simp [sampleSigned, sampleEd]

theorem sampleEd_exact (messages : Set Bytes) (h : ∀ m ∈ messages, m = sampleMessage 8 ∨ m = sampleMessage 999) :
    sampleEd.AcceptsExactly sampleKey messages := by
  have hne := sampleMessage_ne
  have hsignatures : sampleSignature ≠ changedSignature := by decide +kernel
  intro m hm m' hm'
  rcases h m hm with heq | heq
  · rcases h m' hm' with heq' | heq'
    · simp [sampleEd, heq, heq']
    · simp [sampleEd, heq, heq', hne, hsignatures]
  · rcases h m' hm' with heq' | heq'
    · simp [sampleEd, heq, heq', hne, hne.symm, hsignatures.symm]
    · simp [sampleEd, heq, heq', hne]

-- `now` in another time zone, and the manifest with another number of cores.
theorem signed_manifest_sample :
    let verify := fun document => verifyManifest sampleRuntime sampleEd document (.bytes (sampleEd.publicKey sampleKey))
      (.str (py "2026-11-07T13:00:00+01:00")) (some [py "node-beta"]) none
    Reports (verify (.dict sampleSigned)) (InForce sampleRuntime 63929736000000000 (some [py "node-beta"]) none
        (PyData.ofFields (sampleManifest 8).fields)) ∧
      ((∃ reason, verify (.dict (PyData.ofFields (withSignature (sampleManifest 999) sampleSignature).fields)) =
          .ok (false, reason)) ↔
        VersionShown sampleRuntime (withSignature (sampleManifest 999) sampleSignature)) := by
  have hnow : parseInstant sampleRuntime (.str (py "2026-11-07T13:00:00+01:00")) = .ok 63929736000000000 := by
    decide +kernel
  have hfirst : ∀ m, canonicalRecordBytes sampleRuntime (PyData.ofFields (sampleManifest 8).fields) = .ok m →
      m = sampleMessage 8 := by
    intro m hm
    rw [sampleMessage_eq 8 (.inl rfl)] at hm
    exact (Except.ok.inj hm).symm
  have hunsigned : unsigned (withSignature (sampleManifest 999) sampleSignature) = sampleManifest 999 :=
    unsigned_withSignature _ _ (by rfl)
  have hsecond : ∀ m, canonicalRecordBytes sampleRuntime
      (PyData.ofFields (unsigned (withSignature (sampleManifest 999) sampleSignature)).fields) = .ok m →
      m = sampleMessage 999 := by
    intro m hm
    rw [hunsigned, sampleMessage_eq 999 (.inr rfl)] at hm
    exact (Except.ok.inj hm).symm
  have hchanged : Json.norm (sampleManifest 999).json ≠ Json.norm (sampleManifest 8).json := by decide +kernel
  have hmain := signed_manifest_iff sampleRuntime sampleEd (sampleManifest 8) sampleKey sampleSigned sampleSigned_eq
    (sampleEd_exact _ fun m hm => .inl (hfirst m hm)) (.str (py "2026-11-07T13:00:00+01:00")) 63929736000000000 hnow
    (some [py "node-beta"]) none
  refine ⟨hmain.1, hmain.2.2.2 (withSignature (sampleManifest 999) sampleSignature) (by rfl) ?_ ?_⟩
  · rw [hunsigned]
    exact hchanged
  · exact sampleEd_exact _ fun m hm => hm.imp (hfirst m) (hsecond m)

theorem intRepr_pow (k : Nat) (h : Json.maxIntDigits ≤ k) :
    PyData.intRepr ((10 ^ k : Nat) : Int) =
      .error (.valueError (py "Exceeds the limit for integer string conversion")) := by
  have hlength : ¬ (natText (10 ^ k)).length ≤ Json.maxIntDigits := by
    rw [natText, List.length_map, Nat.length_toDigits_le_iff (by decide) (by decide), Nat.not_lt]
    exact Nat.pow_le_pow_right (by decide) h
  rw [PyData.intRepr, Int.natAbs_natCast, if_neg hlength]

-- `signed["schema_version"] = version`, for a version that has no text.
theorem verify_unshown (version : Int) (hne : version ≠ 1) (e : PyExc) (hrepr : PyData.intRepr version = .error e)
    (hother : ∀ msg, e ≠ .manifestError msg) (publicKey now : PyData) :
    verifyManifest sampleRuntime sampleEd
      (.dict (PyData.insert (py "schema_version") (.int version) sampleSigned)) publicKey now none none = .error e := by
  have hversion : checkVersion sampleRuntime (.int version) = .error e := by
    simp [checkVersion, PyData.eqInt, hne, PyData.repr, PyData.reprAt, hrepr, bind, Except.bind]
  have hstructure : validateStructure sampleRuntime (PyData.erase signatureKey
      (PyData.insert (py "schema_version") (.int version) sampleSigned)) = .error e := by
    have hfield : fieldOf (PyData.erase signatureKey
        (PyData.insert (py "schema_version") (.int version) sampleSigned)) (py "schema_version") = .int version := by
      rfl
    have hmissing : (requiredTopLevel.filter fun key => (PyData.get? key (PyData.erase signatureKey
        (PyData.insert (py "schema_version") (.int version) sampleSigned))).isNone) = [] := by
      rfl
    rw [validateStructure, hmissing, hfield, hversion]
    rfl
  rw [verifyManifest_eq sampleRuntime sampleEd _ _ _ _ _ sampleSignature (by decide) (by rfl), hstructure]
  split
  · next msg herror => exact absurd (Except.error.inj herror) (hother msg)
  · next herror => rw [Except.error.inj herror]
  · next hok => cases hok

theorem huge_version_raises :
    signManifest sampleRuntime sampleEd (.dict (PyData.ofFields (sampleManifest 8).fields)) (.bytes sampleKey) =
        .ok sampleSigned ∧
      verifyManifest sampleRuntime sampleEd
          (.dict (PyData.insert (py "schema_version") (.int ((10 ^ 5000 : Nat) : Int)) sampleSigned))
          (.bytes samplePublic) (.str (py "2026-11-07T12:00:00+00:00")) none none =
        .error (.valueError (py "Exceeds the limit for integer string conversion")) := by
  have hne : ∀ k, k ≠ 0 → ((10 ^ k : Nat) : Int) ≠ 1 := by
    intro k hk
    rw [Ne, Nat.cast_eq_one]
    exact (Nat.one_lt_pow hk (by decide)).ne'
  exact ⟨sampleSigned_eq, verify_unshown _ (hne 5000 (by decide)) _ (intRepr_pow 5000 (by decide)) (by simp) _ _⟩

end Sample

end V91Core.Manifest
