import V91Core.Json.Str
import V91Core.Python.Exc
import V91Core.Python.TextFile

namespace V91Core.Measurement

open V91Core.Python

def genesis : PyStr := List.replicate 64 (cp '0')

-- `sort_keys=True, separators=(",", ":"), ensure_ascii=False, allow_nan=False`.
def canonicalStyle : Json.Style := ⟨false, true, false, false⟩

def canonicalJson (rt : Runtime) (value : Json) : Except PyExc PyStr := dumps rt canonicalStyle value

-- The `digest_input` of `event_hash`. `json.dumps` runs below the frames of
-- `event_hash` and `canonical_json`.
def digestInput (rt : Runtime) (previousHash : PyStr) (payload : Json) : Except PyExc Bytes := do
  let previous ← encodeAscii previousHash
  let body ← canonicalJson (rt.below 2) payload
  let body ← encodeUtf8 body
  return previous ++ 10 :: body

def eventHash (rt : Runtime) (previousHash : PyStr) (payload : Json) : Except PyExc PyStr := do
  let input ← digestInput rt previousHash payload
  return rt.sha256Hex input

inductive Status where
  | emptyLedger
  | chainValid
deriving DecidableEq

structure LedgerState where
  status : Status
  events : Nat
  lastHash : PyStr
deriving DecidableEq

-- `record.get(key)`.
def get (key : PyStr) (fields : List (PyStr × Json)) : Json := (Json.lookup key fields).getD .null

def atLine (text : PyStr) (lineNumber : Nat) : PyExc := .measurementError (text ++ natText lineNumber)

def require (ok : Bool) (e : PyExc) : Except PyExc Unit := if ok then .ok () else .error e

-- The checks on one parsed record; the result is its hash.
def checkRecord (rt : Runtime) (lineNumber expectedSequence : Nat) (previous : PyStr) :
    Json → Except PyExc PyStr
  | .obj record => do
      let suppliedHash := get (py "event_hash") record
      let record := Json.erase (py "event_hash") record
      require (Json.eqInt expectedSequence (get (py "sequence") record))
        (atLine (py "Sequence mismatch at line ") lineNumber)
      require (get (py "previous_hash") record = .str previous)
        (atLine (py "Previous hash mismatch at line ") lineNumber)
      let calculated ← eventHash rt previous (.obj record)
      require (suppliedHash = .str calculated) (atLine (py "Event hash mismatch at line ") lineNumber)
      return calculated
  | _ => .error (atLine (py "Invalid record at line ") lineNumber)

def verifyLine (rt : Runtime) (lineNumber expectedSequence : Nat) (previous line : PyStr) :
    Except PyExc PyStr := do
  require (strip line ≠ []) (atLine (py "Blank ledger line at ") lineNumber)
  let record ← loadsText rt line
  checkRecord rt lineNumber expectedSequence previous record

-- The loop of `verify_ledger`; the result is the next sequence number and the
-- last hash.
def verifyLines (rt : Runtime) : Nat → Nat → PyStr → List PyStr → Except PyExc (Nat × PyStr)
  | _, expectedSequence, previous, [] => .ok (expectedSequence, previous)
  | lineNumber, expectedSequence, previous, line :: lines => do
      let calculated ← verifyLine rt lineNumber expectedSequence previous line
      verifyLines rt (lineNumber + 1) (expectedSequence + 1) calculated lines

-- `except (OSError, json.JSONDecodeError)`.
def readError (e : PyExc) : PyExc :=
  match e with
  | .jsonDecode _ _ => .measurementError (py "Ledger cannot be read or parsed: " ++ e.typeName)
  | _ => if e.isOSError then .measurementError (py "Ledger cannot be read or parsed: " ++ e.typeName) else e

-- `verify_ledger` on the content of a file that exists.
def verifyContent (rt : Runtime) (content : Bytes) : Except PyExc LedgerState :=
  let stream := readLines content
  match verifyLines rt 1 1 genesis stream.lines with
  | .error e => .error (readError e)
  | .ok (expectedSequence, previous) =>
      if stream.error then .error .unicodeDecode else .ok ⟨.chainValid, expectedSequence - 1, previous⟩

-- `verify_ledger`, where `none` is a missing file.
def verifyLedger (rt : Runtime) : Option Bytes → Except PyExc LedgerState
  | none => .ok ⟨.emptyLedger, 0, genesis⟩
  | some content => verifyContent rt content

-- The `payload` of `append_snapshot`.
def payloadFields (state : LedgerState) (recordedAt : PyStr) (snapshot : Json) : List (PyStr × Json) :=
  [(py "sequence", .int (state.events + 1)), (py "previous_hash", .str state.lastHash),
    (py "recorded_at_utc", .str recordedAt), (py "snapshot", snapshot)]

-- `record = dict(payload)` with its hash.
def recordFields (payload : List (PyStr × Json)) (digest : PyStr) : List (PyStr × Json) :=
  Json.insert (py "event_hash") (.str digest) payload

-- The bytes of `canonical_json(record) + "\n"`.
def recordLine (rt : Runtime) (record : Json) : Except PyExc Bytes := do
  let text ← canonicalJson rt record
  encodeUtf8 (text ++ [cp '\n'])

end V91Core.Measurement
