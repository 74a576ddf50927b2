import V91Core.Json.Decode
import V91Core.Python.Runtime

namespace V91Core.Python

-- The exceptions that the modelled code raises or catches.
inductive PyExc where
  | jsonDecode (msg : String) (pos : Nat)
  | unicodeDecode
  | unicodeEncode
  | valueError (msg : PyStr)
  | typeError
  | unhashable (typeName : PyStr)
  | keyError
  | attributeError
  | recursionError
  | overflowError
  | fileExists
  | fileNotFound
  | osError (name : PyStr)
  | sqliteError
  | measurementError (msg : PyStr)
  | controlError (msg : PyStr)
  | leaseLockError (msg : PyStr)
  | heartbeatError (msg : PyStr)
  | cryptoReceiptError (msg : PyStr)
  | encryptedStoreError (msg : PyStr)
  | encryptedIntegrityError (msg : PyStr)
  | peerStoreError (msg : PyStr)
  | peerIntegrityError (msg : PyStr)
  | receiptValidationError (msg : PyStr)
  | modelRunnerError (msg : PyStr)
  | modelRunManifestError (msg : PyStr)
  | manifestError (msg : PyStr)
  | replaySessionError (msg : PyStr)
  | admissionError (msg : PyStr)
  | secretStoreError (msg : PyStr)
deriving DecidableEq

namespace PyExc

def isValueError : PyExc → Bool
  | .jsonDecode _ _ | .unicodeDecode | .unicodeEncode | .valueError _ | .leaseLockError _
  | .heartbeatError _ | .cryptoReceiptError _ | .encryptedStoreError _ | .encryptedIntegrityError _
  | .peerStoreError _ | .peerIntegrityError _ | .receiptValidationError _ | .modelRunnerError _
  | .modelRunManifestError _ | .manifestError _ | .replaySessionError _ | .admissionError _ => true
  | _ => false

def isTypeError : PyExc → Bool
  | .typeError | .unhashable _ => true
  | _ => false

def isOSError : PyExc → Bool
  | .fileExists | .fileNotFound | .osError _ => true
  | _ => false

-- `type(exc).__name__`.
def typeName : PyExc → PyStr
  | .jsonDecode _ _ => py "JSONDecodeError"
  | .unicodeDecode => py "UnicodeDecodeError"
  | .unicodeEncode => py "UnicodeEncodeError"
  | .valueError _ => py "ValueError"
  | .typeError | .unhashable _ => py "TypeError"
  | .keyError => py "KeyError"
  | .attributeError => py "AttributeError"
  | .recursionError => py "RecursionError"
  | .overflowError => py "OverflowError"
  | .fileExists => py "FileExistsError"
  | .fileNotFound => py "FileNotFoundError"
  | .osError name => name
  | .sqliteError => py "Error"
  | .measurementError _ => py "MeasurementError"
  | .controlError _ => py "ControlError"
  | .leaseLockError _ => py "LeaseLockError"
  | .heartbeatError _ => py "HeartbeatError"
  | .cryptoReceiptError _ => py "CryptoReceiptError"
  | .encryptedStoreError _ => py "EncryptedStoreError"
  | .encryptedIntegrityError _ | .peerIntegrityError _ => py "IntegrityError"
  | .peerStoreError _ => py "PeerStoreError"
  | .receiptValidationError _ => py "ReceiptValidationError"
  | .modelRunnerError _ => py "ModelRunnerError"
  | .modelRunManifestError _ => py "ModelRunManifestError"
  | .manifestError _ => py "ManifestError"
  | .replaySessionError _ => py "ReplaySessionError"
  | .admissionError _ => py "AdmissionError"
  | .secretStoreError _ => py "SecretStoreError"

-- `str(exc)` of the exceptions whose text is kept.
def text : PyExc → PyStr
  | .valueError msg | .measurementError msg | .controlError msg | .leaseLockError msg | .heartbeatError msg
  | .cryptoReceiptError msg | .encryptedStoreError msg | .encryptedIntegrityError msg | .peerStoreError msg
  | .peerIntegrityError msg | .receiptValidationError msg | .modelRunnerError msg
  | .modelRunManifestError msg | .manifestError msg | .replaySessionError msg | .admissionError msg
  | .secretStoreError msg => msg
  | .unhashable typeName => py "unhashable type: '" ++ typeName ++ py "'"
  | _ => []

end PyExc

-- An exception of code that the program only calls, with what `str` gives for it. That may
-- be an exception itself.
structure Raised where
  exc : PyExc
  text : Except PyExc PyStr

namespace Raised

-- An exception with a plain text.
def of (e : PyExc) : Raised := ⟨e, .ok e.text⟩

def Printable (e : Raised) : Prop := ∃ text, e.text = .ok text

theorem printable_of (e : PyExc) : (of e).Printable := ⟨_, rfl⟩

end Raised

-- What the interpreter does itself raises nothing but plain exceptions.
def plain : Except PyExc α → Except Raised α := Except.mapError Raised.of

@[simp] theorem plain_ok (a : α) : plain (.ok a) = .ok a := rfl

@[simp] theorem plain_error (e : PyExc) : (plain (.error e) : Except Raised α) = .error (.of e) := rfl

@[simp] theorem plain_eq_ok (r : Except PyExc α) (a : α) : plain r = .ok a ↔ r = .ok a := by
  cases r <;> simp

def ofOption (e : ε) : Option α → Except ε α
  | some a => .ok a
  | none => .error e

def encodeUtf8 (s : PyStr) : Except PyExc Bytes := ofOption .unicodeEncode (utf8Encode s)

def encodeAscii (s : PyStr) : Except PyExc Bytes :=
  if isAscii s then .ok (s.map fun c => .ofNat c.val) else .error .unicodeEncode

-- `json.dumps`.
def dumps (rt : Runtime) (st : Json.Style) (j : Json) : Except PyExc PyStr :=
  match Json.encode st rt.nesting j with
  | .ok text => .ok text
  | .error .recursion => .error .recursionError
  | .error .tooManyDigits => .error (.valueError (py "Exceeds the limit for integer string conversion"))
  | .error .notCompliant => .error (.valueError (py "Out of range float values are not JSON compliant"))

-- `json.loads` of a `str`.
def loadsText (rt : Runtime) (s : PyStr) : Except PyExc Json :=
  match Json.loads rt.nesting s with
  | .ok j => .ok j
  | .error (.unreadable msg left) => .error (.jsonDecode msg (s.length - left))
  | .error .tooManyDigits => .error (.valueError (py "Exceeds the limit for integer string conversion"))
  | .error .recursion | .error .stuck => .error .recursionError

-- `value[key]` for a `str` key.
def subscript (j : Json) (key : PyStr) : Except PyExc Json :=
  match j with
  | .obj fields => ofOption .keyError (Json.lookup key fields)
  | _ => .error .typeError

theorem bind_eq_ok (x : Except ε α) (f : α → Except ε β) (b : β) :
    (x >>= f) = .ok b ↔ ∃ a, x = .ok a ∧ f a = .ok b := by
  cases x <;> simp [bind, Except.bind]

theorem ofOption_eq_ok (e : ε) (value : Option α) (a : α) : ofOption e value = .ok a ↔ value = some a := by
  cases value with
  | none => simp [ofOption]
  | some b => simp [ofOption]

theorem toOption_eq_some (r : Except ε α) (a : α) (h : r.toOption = some a) : r = .ok a := by
  cases r with
  | error e => cases h
  | ok b => rw [Option.some.inj h]

theorem mapError_eq_ok (f : ε → ε') (r : Except ε α) (a : α) : r.mapError f = .ok a ↔ r = .ok a := by
  cases r <;> simp [Except.mapError]

theorem dumps_eq_ok (rt : Runtime) (st : Json.Style) (j : Json) (text : PyStr) :
    dumps rt st j = .ok text ↔ Json.encode st rt.nesting j = .ok text := by
  unfold dumps
  split <;> simp_all

theorem loadsText_eq_ok (rt : Runtime) (s : PyStr) (j : Json) :
    loadsText rt s = .ok j ↔ Json.loads rt.nesting s = .ok j := by
  unfold loadsText
  split <;> simp_all

theorem subscript_eq_ok (j v : Json) (key : PyStr) :
    subscript j key = .ok v ↔ ∃ fields, j = .obj fields ∧ Json.lookup key fields = some v := by
  cases j with
  | obj fields =>
      cases hl : Json.lookup key fields <;> simp [subscript, ofOption, hl]
  | _ => simp [subscript]

theorem encodeUtf8_eq_ok (s : PyStr) (bs : Bytes) :
    encodeUtf8 s = .ok bs ↔ utf8Encode s = some bs := by
  unfold encodeUtf8
  cases utf8Encode s <;> simp [ofOption]

theorem encodeUtf8_of_ascii (s : PyStr) (h : isAscii s = true) : ∃ bs, encodeUtf8 s = .ok bs := by
  have hsome : (utf8Encode s).isSome = true := (utf8Encode_isSome s).mpr (ascii_encodable s h)
  obtain ⟨bs, hbs⟩ := Option.isSome_iff_exists.mp hsome
  exact ⟨bs, (encodeUtf8_eq_ok s bs).mpr hbs⟩

theorem encodeAscii_eq_ok (s : PyStr) (bs : Bytes) :
    encodeAscii s = .ok bs ↔ isAscii s = true ∧ s.map (fun c => .ofNat c.val) = bs := by
  unfold encodeAscii
  split <;> simp [*]

theorem ascii_bytes (s : PyStr) (h : isAscii s = true) :
    (s.map fun c => UInt8.ofNat c.val).map (fun b => chr b.toNat) = s := by
  simp only [isAscii, List.all_eq_true, CodePoint.isAscii, decide_eq_true_eq] at h
  rw [List.map_map]
  refine (List.map_congr_left fun c hc => ?_).trans (List.map_id s)
  exact ofNat_val c _ (toNat_byte _ (by have := h c hc; omega))

theorem encodeAscii_injective (s t : PyStr) (bs : Bytes) (hs : encodeAscii s = .ok bs)
    (ht : encodeAscii t = .ok bs) : s = t := by
  obtain ⟨hascii, rfl⟩ := (encodeAscii_eq_ok _ _).mp hs
  obtain ⟨hascii', hmap⟩ := (encodeAscii_eq_ok _ _).mp ht
  rw [← ascii_bytes s hascii, ← hmap, ascii_bytes t hascii']

end V91Core.Python
