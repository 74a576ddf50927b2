import V91Core.Json.Chars
import V91Core.PeerSync.Replay

namespace V91Core.PeerSync

open V91Core.Python

section Refusals

-- Every exception of the computation is one that `receive` catches.
def Refuses (x : Except PyExc α) : Prop := ∀ e, x = .error e → isRefusal e = true

theorem refuses_bind_iff (x : Except PyExc α) (f : α → Except PyExc β) :
    Refuses (x >>= f) ↔ Refuses x ∧ ∀ a, x = .ok a → Refuses (f a) := by
  cases x with
  | error e => exact ⟨fun h => ⟨fun e' he => h e' (congrArg _ (Except.error.inj he)), nofun⟩,
      fun h e' he => h.1 e' (congrArg _ (Except.error.inj he))⟩
  | ok a =>
      refine ⟨fun h => ⟨nofun, fun b hb => ?_⟩, fun h => h.2 a rfl⟩
      obtain rfl := Except.ok.inj hb
      exact h

theorem Refuses.bind {x : Except PyExc α} {f : α → Except PyExc β} (hx : Refuses x)
    (hf : ∀ a, x = .ok a → Refuses (f a)) : Refuses (x >>= f) := (refuses_bind_iff x f).mpr ⟨hx, hf⟩

theorem Refuses.ok (a : α) : Refuses (.ok a) := nofun

theorem refuses_check (ok : Bool) (msg : String) : Refuses (check ok msg) := by
  intro e he
  cases ok <;> cases he
  rfl

theorem refuses_nonEmptyStr (value : Json) (msg : String) : Refuses (nonEmptyStr value msg) := by
  intro e he
  unfold nonEmptyStr at he
  split at he <;> cases he
  rfl

theorem refuses_positiveInt (value : Json) (msg : String) : Refuses (positiveInt value msg) := by
  intro e he
  unfold positiveInt at he
  split at he
  · split_ifs at he
    cases he
    rfl
  · cases he
    rfl

theorem refuses_signature64 (value : Json) (msg : String) : Refuses (signature64 value msg) := by
  intro e he
  unfold signature64 at he
  split at he
  · split_ifs at he
    cases he
    rfl
  · cases he
    rfl

theorem refuses_nonEmptyStrs (value : Json) (msg : String) : Refuses (nonEmptyStrs value msg) := by
  unfold nonEmptyStrs
  split
  · rename_i items
    induction items with
    | nil => exact Refuses.ok []
    | cons j items ih =>
        rw [List.mapM_cons]
        apply (refuses_nonEmptyStr j msg).bind
        intro s _
        exact ih.bind fun _ _ => Refuses.ok _
  · intro e he
    cases he
    rfl

theorem refuses_inPeerStates (value : Json) : Refuses (inPeerStates value) := by
  intro e he
  cases value <;> cases he <;> rfl

theorem refuses_number (value : Json) (msg : String) : Refuses (number TimeArith.binary64 value msg) := by
  intro e he
  unfold number at he
  cases h : TimeArith.binary64.ofJson value with
  | none =>
      rw [h] at he
      cases he
      rfl
  | some t =>
      rw [h] at he
      cases he

theorem refuses_subscript (message : Json.Dict) (hfields : hasRequired message = true) (key : PyStr)
    (hkey : key ∈ required) : Refuses (subscript message.json key) := by
  intro e he
  simp only [hasRequired, Bool.and_eq_true, List.all_eq_true, decide_eq_true_eq] at hfields
  obtain ⟨f, hf, rfl⟩ := List.mem_map.mp (hfields.2 key hkey)
  have hlookup := (Json.lookup_eq_some_iff f.1 f.2 message.fields message.wf.1).mpr hf
  simp only [subscript, Json.Dict.json, hlookup, ofOption] at he
  cases he

theorem refuses_readHeader (message : Json.Dict) : Refuses (readHeader TimeArith.binary64 message) := by
  unfold readHeader
  apply (refuses_check _ _).bind
  intro _ hfields
  rw [check_eq_ok] at hfields
  have hsubscript := refuses_subscript message hfields
  apply (hsubscript _ (by decide)).bind fun _ _ => ?_
  apply (hsubscript _ (by decide)).bind fun _ _ => ?_
  apply (hsubscript _ (by decide)).bind fun _ _ => ?_
  apply (hsubscript _ (by decide)).bind fun _ _ => ?_
  apply (hsubscript _ (by decide)).bind fun _ _ => ?_
  apply (refuses_check _ _).bind fun _ _ => ?_
  apply (refuses_nonEmptyStr _ _).bind fun _ _ => ?_
  apply (refuses_nonEmptyStr _ _).bind fun _ _ => ?_
  apply (refuses_positiveInt _ _).bind fun _ _ => ?_
  exact (refuses_number _ _).bind fun _ _ => Refuses.ok _

theorem refuses_readBody (message : Json.Dict) (hfields : hasRequired message = true) :
    Refuses (readBody message) := by
  have hsubscript := refuses_subscript message hfields
  unfold readBody
  apply (hsubscript _ (by decide)).bind fun _ _ => ?_
  apply (refuses_nonEmptyStr _ _).bind fun _ _ => ?_
  apply (hsubscript _ (by decide)).bind fun _ _ => ?_
  apply (refuses_nonEmptyStrs _ _).bind fun _ _ => ?_
  apply (refuses_check _ _).bind fun _ _ => ?_
  apply (hsubscript _ (by decide)).bind fun _ _ => ?_
  apply (refuses_inPeerStates _).bind fun _ _ => ?_
  apply (refuses_check _ _).bind fun _ _ => ?_
  exact (hsubscript _ (by decide)).bind fun _ _ => refuses_signature64 _ _

end Refusals

section Escapes

variable (rt : Runtime) (trust : Trust PyNum) (message : Json.Dict) (now : PyNum)

-- What keeps `receive` from raising: the numbers that it checks for finiteness
-- fit a float, and what it signs has a canonical encoding and an ASCII signature
-- to be compared with.
structure Harmless : Prop where
  timestamp : ∀ peerId keyId sequence timestamp,
    readHeader TimeArith.binary64 message = .ok (peerId, keyId, sequence, timestamp) →
      ∃ x, timestamp.toFloat = .ok x
  receiverTime : ∀ peerId keyId sequence timestamp signature,
    readHeader TimeArith.binary64 message = .ok (peerId, keyId, sequence, timestamp) →
      timestamp.isFinite = .ok true → readBody message = .ok signature → ∃ x, now.toFloat = .ok x
  signed : ∀ h secret, validate TimeArith.binary64 message now = .ok h →
    trust.trustedKeys h.keyId = some (h.peerId, secret) → 32 ≤ secret.length →
      Json.Fits false rt.nesting (unsignedPayload message) ∧
        Json.AllChars (fun c => c.isSurrogate = false) (unsignedPayload message) ∧
        isAscii h.signature = true

theorem refuses_checkFinite (a : PyNum) (msg : String) :
    Refuses (checkFinite TimeArith.binary64 a msg) ↔ ∃ x, a.toFloat = .ok x := by
  change Refuses (a.isFinite >>= fun finite => check finite msg) ↔ _
  rw [refuses_bind_iff]
  unfold PyNum.isFinite
  cases hx : a.toFloat with
  | ok x => exact iff_of_true ⟨Refuses.ok _, fun b _ => refuses_check b msg⟩ ⟨x, rfl⟩
  | error e =>
      refine iff_of_false (fun h => ?_) nofun
      have hrefusal := h.1 e rfl
      unfold PyNum.toFloat at hx
      cases a with
      | float x => cases hx
      | int n =>
          simp only at hx
          split_ifs at hx
          obtain rfl := Except.error.inj hx
          cases hrefusal

theorem checkFinite_eq_ok (a : PyNum) (msg : String) (u : Unit) :
    checkFinite TimeArith.binary64 a msg = .ok u ↔ a.isFinite = .ok true := by
  change (a.isFinite >>= fun finite => check finite msg) = .ok u ↔ _
  rw [bind_eq_ok]
  constructor
  · rintro ⟨finite, hfinite, hcheck⟩
    rw [hfinite, (check_eq_ok finite msg).mp hcheck]
  · exact fun h => ⟨true, h, rfl⟩

-- Validation raises something that is not caught exactly when a number overflows.
theorem validate_refuses_iff : Refuses (validate TimeArith.binary64 message now) ↔
    (∀ peerId keyId sequence timestamp,
      readHeader TimeArith.binary64 message = .ok (peerId, keyId, sequence, timestamp) →
        ∃ x, timestamp.toFloat = .ok x) ∧
    ∀ peerId keyId sequence timestamp signature,
      readHeader TimeArith.binary64 message = .ok (peerId, keyId, sequence, timestamp) →
        timestamp.isFinite = .ok true → readBody message = .ok signature → ∃ x, now.toFloat = .ok x := by
  unfold validate
  simp only [refuses_bind_iff, refuses_checkFinite, checkFinite_eq_ok, Prod.forall]
  constructor
  · rintro ⟨-, h⟩
    refine ⟨fun p k s t hheader => (h p k s t hheader).1, ?_⟩
    intro p k s t signature hheader hfinite hbody
    exact (((h p k s t hheader).2 () hfinite).2 signature hbody).1
  · rintro ⟨htimestamp, hnow⟩
    refine ⟨refuses_readHeader message, fun p k s t hheader => ⟨htimestamp p k s t hheader, ?_⟩⟩
    intro _ hfinite
    have hfields : hasRequired message = true := by
      obtain ⟨_, hcheck, -⟩ := (bind_eq_ok _ _ _).mp hheader
      exact (check_eq_ok _ _).mp hcheck
    refine ⟨refuses_readBody message hfields, fun signature hbody => ⟨?_, ?_⟩⟩
    · exact hnow p k s t signature hheader hfinite hbody
    · exact fun _ _ => Refuses.ok _

-- Authentication raises exactly when the payload has no canonical encoding, or
-- the signature is not ASCII.
theorem authenticate_isOk_iff (h : Heartbeat PyNum) :
    (∃ out, authenticate rt trust message h = .ok out) ↔
      ∀ secret, trust.trustedKeys h.keyId = some (h.peerId, secret) → 32 ≤ secret.length →
        Json.Fits false rt.nesting (unsignedPayload message) ∧
          Json.AllChars (fun c => c.isSurrogate = false) (unsignedPayload message) ∧
          isAscii h.signature = true := by
  unfold authenticate
  split
  · rename_i hunknown
    refine iff_of_true ⟨_, rfl⟩ fun secret htrusted => ?_
    rw [hunknown] at htrusted
    cases htrusted
  · rename_i expected secret htrusted
    by_cases hpeer : h.peerId = expected
    case neg =>
      rw [if_pos hpeer]
      refine iff_of_true ⟨_, rfl⟩ fun secret' htrusted' => ?_
      rw [htrusted] at htrusted'
      exact absurd (Prod.mk.inj (Option.some.inj htrusted')).1.symm hpeer
    rw [if_neg (not_not.mpr hpeer)]
    subst hpeer
    by_cases hlength : secret.length < 32
    · rw [if_pos hlength]
      refine iff_of_true ⟨_, rfl⟩ fun secret' htrusted' hlength' => ?_
      rw [htrusted] at htrusted'
      obtain ⟨-, rfl⟩ := Prod.mk.inj (Option.some.inj htrusted')
      omega
    rw [if_neg hlength]
    have hone : (∀ secret', trust.trustedKeys h.keyId = some (h.peerId, secret') → 32 ≤ secret'.length →
        Json.Fits false rt.nesting (unsignedPayload message) ∧
          Json.AllChars (fun c => c.isSurrogate = false) (unsignedPayload message) ∧
          isAscii h.signature = true) ↔
        (∃ payload, canonicalBytes rt (unsignedPayload message) = .ok payload) ∧ isAscii h.signature = true := by
      have hencodes := Json.dumps_utf8_isOk rt canonicalStyle rfl (unsignedPayload message)
      change (∃ payload, canonicalBytes rt (unsignedPayload message) = .ok payload) ↔ _ at hencodes
      rw [hencodes, and_assoc]
      exact ⟨fun hall => hall secret htrusted (by omega), fun hall _ _ _ => hall⟩
    rw [hone]
    constructor
    · rintro ⟨out, hout⟩
      obtain ⟨payload, hpayload, hout⟩ := (bind_eq_ok _ _ _).mp hout
      obtain ⟨equal, hequal, -⟩ := (bind_eq_ok _ _ _).mp hout
      refine ⟨⟨payload, hpayload⟩, ?_⟩
      cases hascii : isAscii h.signature with
      | true => rfl
      | false =>
          rw [compareDigest, hascii] at hequal
          cases hequal
    · rintro ⟨⟨payload, hpayload⟩, hascii⟩
      rw [hpayload]
      change ∃ out, (ofOption PyExc.typeError (compareDigest h.signature (rt.hmacHex secret payload)) >>= _) = _
      rw [compareDigest, hascii, Runtime.hmacHex, isAscii_hexdigest]
      simp only [Bool.and_self, if_true, ofOption]
      cases decide (h.signature = hexdigest (rt.hmac secret payload)) with
      | true => exact ⟨none, rfl⟩
      | false => exact ⟨_, rfl⟩

theorem toFloat_of_isFinite (a : PyNum) (h : a.isFinite = .ok true) : ∃ x, a.toFloat = .ok x := by
  unfold PyNum.isFinite at h
  cases hx : a.toFloat with
  | ok x => exact ⟨x, rfl⟩
  | error e =>
      rw [hx] at h
      cases h

-- After validation the two times are floats.
theorem age_isOk (h : Heartbeat PyNum) (hvalid : validate TimeArith.binary64 message now = .ok h) :
    ∃ p, age TimeArith.binary64 now h.timestamp = .ok p := by
  unfold validate at hvalid
  obtain ⟨⟨p, k, s, t⟩, -, hvalid⟩ := (bind_eq_ok _ _ _).mp hvalid
  obtain ⟨_, htimestamp, hvalid⟩ := (bind_eq_ok _ _ _).mp hvalid
  obtain ⟨signature, -, hvalid⟩ := (bind_eq_ok _ _ _).mp hvalid
  obtain ⟨_, hnow, hvalid⟩ := (bind_eq_ok _ _ _).mp hvalid
  obtain rfl := Except.ok.inj hvalid
  obtain ⟨x, hx⟩ := toFloat_of_isFinite _ ((checkFinite_eq_ok _ _ _).mp hnow)
  obtain ⟨y, hy⟩ := toFloat_of_isFinite _ ((checkFinite_eq_ok _ _ _).mp htimestamp)
  refine ⟨(.float (x - y), .float x), ?_⟩
  unfold age
  change (now.toFloat.map PyNum.float >>= _) = _
  rw [hx]
  change (t.toFloat.map PyNum.float >>= _) = _
  rw [hy]
  rfl

theorem receive_returns_iff (m : PeerRegistry PyNum) :
    (∃ result, (receive rt TimeArith.binary64 trust m message now).1 = .ok result) ↔
      Harmless rt trust message now := by
  have hvalidate := validate_refuses_iff message now
  unfold receive
  cases hvalid : validate TimeArith.binary64 message now with
  | error e =>
      rw [hvalid] at hvalidate
      have hsigned : ∀ h : Heartbeat PyNum, (Except.error e : Except PyExc (Heartbeat PyNum)) ≠ .ok h := nofun
      constructor
      · rintro ⟨result, hresult⟩
        simp only at hresult
        have hrefuses : Refuses (Except.error e : Except PyExc (Heartbeat PyNum)) := by
          intro e' he
          obtain rfl := Except.error.inj he
          by_contra hcaught
          rw [if_neg hcaught] at hresult
          cases hresult
        obtain ⟨htimestamp, hnow⟩ := hvalidate.mp hrefuses
        exact ⟨htimestamp, hnow, fun h secret hval => absurd (hvalid.symm.trans hval) (hsigned h)⟩
      · intro hharmless
        have hrefuses := hvalidate.mpr ⟨hharmless.timestamp, hharmless.receiverTime⟩
        simp only [hrefuses e rfl, if_true]
        exact ⟨_, rfl⟩
  | ok h =>
      rw [hvalid] at hvalidate
      obtain ⟨htimestamp, hnow⟩ := hvalidate.mp (Refuses.ok h)
      have hauthenticate := authenticate_isOk_iff rt trust message h
      have hharmless : Harmless rt trust message now ↔ ∃ out, authenticate rt trust message h = .ok out := by
        rw [hauthenticate]
        constructor
        · exact fun hall secret => hall.signed h secret hvalid
        · intro hsigned
          refine ⟨htimestamp, hnow, fun h' secret hval => ?_⟩
          obtain rfl := Except.ok.inj (hvalid.symm.trans hval)
          exact hsigned secret
      rw [hharmless]
      simp only
      cases hauth : authenticate rt trust message h with
      | error e => exact iff_of_false nofun nofun
      | ok refused =>
          refine iff_of_true ?_ ⟨refused, rfl⟩
          cases refused with
          | some reason => exact ⟨_, rfl⟩
          | none =>
              obtain ⟨⟨spent, receivedAt⟩, haged⟩ := age_isOk message now h hvalid
              simp only [haged]
              split_ifs
              · exact ⟨_, rfl⟩
              · exact ⟨_, rfl⟩
              · exact ⟨_, rfl⟩
              · exact ⟨_, rfl⟩

end Escapes

-- Every trusted key has a secret of the length that HMAC is used with.
def Trust.WellFormed (trust : Trust PyNum) : Prop :=
  ∀ keyId peerId secret, trust.trustedKeys keyId = some (peerId, secret) → 32 ≤ secret.length

theorem sampleTrust_wellFormed : sampleTrust.WellFormed := by
  intro keyId peerId secret hkey
  simp only [sampleTrust, Option.ite_none_right_eq_some, Option.some.injEq, Prod.mk.injEq] at hkey
  obtain ⟨-, -, rfl⟩ := hkey
  rfl

-- The keys are well formed, the receiver time is finite and the fields of the message all
-- have the right types; its timestamp is an int beyond every float.
theorem receive_raises : ¬ ∀ (trust : Trust PyNum) (m : PeerRegistry PyNum) (message : Json.Dict) (now : PyNum),
    trust.WellFormed → now.isFinite = .ok true →
      ∃ result, (receive sampleRuntime TimeArith.binary64 trust m message now).1 = .ok result := by
  intro h
  obtain ⟨result, hresult⟩ := h sampleTrust PeerRegistry.init (sampleMessage (10 ^ 400)) (.float 1005.0)
    sampleTrust_wellFormed (by decide +kernel)
  have hraises : (receive sampleRuntime TimeArith.binary64 sampleTrust PeerRegistry.init
      (sampleMessage (10 ^ 400)) (.float 1005.0)).1 = .error .overflowError := by
    decide +kernel
  rw [hraises] at hresult
  cases hresult

end V91Core.PeerSync
