import V91Core.Json.Chars
import V91Core.Python.Crypto
import V91Core.Python.Data

namespace V91Core.Store

open V91Core.Python

def signatureField : PyStr := py "receipt_signature"

section Model

variable (rt : Runtime) (ed : Ed25519)

def canonicalRecordBytes (record : List (PyData × PyData)) : Except PyExc Bytes := do
  let text ← (PyData.dict record).dumps rt .canonical
  encodeUtf8 text

def loadPrivate : PyData → Except PyExc Bytes
  | .bytes key =>
      if key.length = 32 then .ok key
      else .error (.cryptoReceiptError (py "private signing key must be raw 32 bytes"))
  | _ => .error (.cryptoReceiptError (py "private signing key must be raw 32 bytes"))

def loadPublic : PyData → Except PyExc Bytes
  | .bytes key =>
      if key.length = 32 then .ok key
      else .error (.cryptoReceiptError (py "public verification key must be raw 32 bytes"))
  | _ => .error (.cryptoReceiptError (py "public verification key must be raw 32 bytes"))

def signRecord (record : PyData) (privateKey : PyData) : Except PyExc PyStr :=
  match record with
  | .dict entries =>
      if (PyData.get? signatureField entries).isSome then
        .error (.cryptoReceiptError (py "record must not already contain 'receipt_signature'"))
      else do
        let signingKey ← loadPrivate privateKey
        let message ← canonicalRecordBytes rt entries
        .ok (bytesHex (ed.sign signingKey message))
  | _ => .error (.cryptoReceiptError (py "record must be a dict"))

-- The `try` block of `verify_record_signature`.
def checkSignature (entries : List (PyData × PyData)) (signatureHex : PyStr) (publicKey : PyData) :
    Except PyExc Bool := do
  let verificationKey ← loadPublic publicKey
  let signature ← ofOption (.valueError (py "non-hexadecimal number found in fromhex() arg")) (fromHex signatureHex)
  let message ← canonicalRecordBytes rt (PyData.erase signatureField entries)
  .ok (ed.verify verificationKey signature message)

def verifyRecordSignature (record : PyData) (publicKey : PyData) : Bool :=
  match record with
  | .dict entries =>
      match PyData.get? signatureField entries with
      | some (.str signatureHex) =>
          if signatureHex.length = 128 then
            match checkSignature rt ed entries signatureHex publicKey with
            | .ok valid => valid
            | .error _ => false
          else false
      | _ => false
  | _ => false

end Model

section Canonical

variable (rt : Runtime)

-- JSON data has the canonical bytes of its own encoder.
theorem canonicalRecordBytes_ofFields (fields : List (PyStr × Json)) :
    canonicalRecordBytes rt (PyData.ofFields fields) = (dumps rt .canonical (.obj fields) >>= encodeUtf8) := by
  rw [← PyData.dumps_ofJson, PyData.ofJson]
  rfl

-- Equal canonical bytes come from equal values.
theorem canonical_injective (j k : Json) (hj : Json.Wf j) (hk : Json.Wf k) (bs : Bytes)
    (h : (dumps rt .canonical j >>= encodeUtf8) = .ok bs)
    (h' : (dumps rt .canonical k >>= encodeUtf8) = .ok bs) : Json.norm j = Json.norm k := by
  obtain ⟨text, htext, hbs⟩ := (bind_eq_ok _ _ _).mp h
  obtain ⟨text', htext', hbs'⟩ := (bind_eq_ok _ _ _).mp h'
  rw [dumps_eq_ok] at htext htext'
  rw [encodeUtf8_eq_ok] at hbs hbs'
  obtain rfl := utf8Encode_injective text text' bs hbs hbs'
  exact Json.encode_injective .canonical rfl rt.nesting j k hj hk text htext htext'

-- A record with raw bytes in it has no canonical form.
theorem canonicalRecordBytes_of_bytes (record : List (PyData × PyData)) (key : PyStr) (value bs : Bytes)
    (hvalue : PyData.get? key record = some (.bytes value)) : canonicalRecordBytes rt record ≠ .ok bs := by
  intro h
  obtain ⟨k, hmem⟩ := PyData.mem_of_get? key record _ hvalue
  obtain ⟨text, htext, -⟩ := (bind_eq_ok _ _ _).mp h
  obtain ⟨limit, text, hbytes⟩ :=
    PyData.dumpsAt_dict_of_mem .canonical rt.nesting record (k, .bytes value) hmem text htext
  cases hbytes

end Canonical

section Verify

variable (rt : Runtime) (ed : Ed25519)

theorem loadPrivate_eq_ok (value : PyData) (key : Bytes) :
    loadPrivate value = .ok key ↔ value = .bytes key ∧ key.length = 32 := by
  cases value with
  | bytes bs =>
      rw [loadPrivate, PyData.bytes.injEq]
      split
      · simp only [Except.ok.injEq]
        constructor
        · rintro rfl
          exact ⟨rfl, ‹_›⟩
        · exact fun h => h.1
      · simp only [reduceCtorEq, false_iff, not_and]
        rintro rfl
        assumption
  | _ => simp [loadPrivate]

-- What a signed record is signed with.
theorem signRecord_eq_ok (entries : List (PyData × PyData)) (privateKey : PyData) (signature : PyStr) :
    signRecord rt ed (.dict entries) privateKey = .ok signature ↔
      PyData.get? signatureField entries = none ∧ ∃ key message, privateKey = .bytes key ∧ key.length = 32 ∧
        canonicalRecordBytes rt entries = .ok message ∧ signature = bytesHex (ed.sign key message) := by
  rw [signRecord]
  by_cases hfield : (PyData.get? signatureField entries).isSome = true
  · rw [if_pos hfield]
    simp [Option.ne_none_iff_isSome.mpr hfield]
  · rw [if_neg hfield]
    simp only [Option.not_isSome_iff_eq_none] at hfield
    simp only [hfield, bind_eq_ok, loadPrivate_eq_ok, Except.ok.injEq, true_and]
    constructor
    · rintro ⟨key, ⟨hkey, hlength⟩, message, hmessage, rfl⟩
      exact ⟨key, message, hkey, hlength, hmessage, rfl⟩
    · rintro ⟨key, message, hkey, hlength, hmessage, rfl⟩
      exact ⟨key, ⟨hkey, hlength⟩, message, hmessage, rfl⟩

theorem checkSignature_eq_ok (entries : List (PyData × PyData)) (signatureHex : PyStr) (key : Bytes) :
    checkSignature rt ed entries signatureHex (.bytes key) = .ok true ↔
      key.length = 32 ∧ ∃ signature message, fromHex signatureHex = some signature ∧
        canonicalRecordBytes rt (PyData.erase signatureField entries) = .ok message ∧
        ed.verify key signature message = true := by
  by_cases hlength : key.length = 32
  · cases hhex : fromHex signatureHex with
    | none => simp [checkSignature, loadPublic, hlength, hhex, ofOption, bind, Except.bind]
    | some signature =>
        cases hmessage : canonicalRecordBytes rt (PyData.erase signatureField entries) <;>
          simp [checkSignature, loadPublic, hlength, hhex, hmessage, ofOption, bind, Except.bind]
  · simp [checkSignature, loadPublic, hlength, bind, Except.bind]

-- A record verifies when its signature is good for its other fields.
theorem verifyRecordSignature_iff (entries : List (PyData × PyData)) (key : Bytes) :
    verifyRecordSignature rt ed (.dict entries) (.bytes key) = true ↔
      ∃ signatureHex, PyData.get? signatureField entries = some (.str signatureHex) ∧
        signatureHex.length = 128 ∧ checkSignature rt ed entries signatureHex (.bytes key) = .ok true := by
  cases hget : PyData.get? signatureField entries with
  | none => simp [verifyRecordSignature, hget]
  | some value =>
      cases value with
      | str signatureHex =>
          by_cases hlength : signatureHex.length = 128
          · cases hcheck : checkSignature rt ed entries signatureHex (.bytes key) <;>
              simp [verifyRecordSignature, hget, hlength, hcheck]
          · simp [verifyRecordSignature, hget, hlength]
      | _ => simp [verifyRecordSignature, hget]

end Verify

end V91Core.Store
