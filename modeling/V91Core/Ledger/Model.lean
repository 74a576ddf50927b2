import V91Core.Json.Str
import V91Core.Python.Exc
import V91Core.Python.TextFile

namespace V91Core.Ledger

open V91Core.Python

def genesis : PyStr := List.replicate 64 (cp '0')

-- The text that `compute_hash` hashes, before it is encoded.
def chainText (rt : Runtime) (prevHash seq timestamp : Json) (body : PyStr) : PyStr :=
  Json.toStr rt.printable prevHash ++ cp '|' :: (Json.toStr rt.printable seq ++ cp '|' ::
    (Json.toStr rt.printable timestamp ++ cp '|' :: body))

def chainMessage (rt : Runtime) (prevHash seq timestamp payload : Json) : Except PyExc Bytes := do
  let body ← dumps rt .canonical payload
  encodeUtf8 (chainText rt prevHash seq timestamp body)

def computeHash (rt : Runtime) (prevHash seq timestamp payload : Json) : Except PyExc PyStr := do
  let message ← chainMessage rt prevHash seq timestamp payload
  return rt.sha256Hex message

structure Report where
  recordsChecked : Nat
  chainValid : Bool
  errors : List PyStr
deriving DecidableEq

-- The `try` block of `verify_chain`, which appends to `report["errors"]`.
abbrev Check := ExceptT PyExc (StateM (List PyStr))

def lineError (lineNo : Nat) (kind : PyStr) : PyStr := py "line " ++ natText lineNo ++ py ": " ++ kind

def Check.exec (x : Check α) (errors : List PyStr) : Except PyExc α × List PyStr := x.run.run errors

def expect (ok : Bool) (lineNo : Nat) (kind : PyStr) : Check Unit :=
  if ok then pure () else modify (· ++ [lineError lineNo kind])

-- `hmac.compare_digest(str(value), other)`.
def compareValue (rt : Runtime) (value other : Json) : Except PyExc Bool :=
  match other with
  | .str s => ofOption .typeError (compareDigest (Json.toStr rt.printable value) s)
  | _ => .error .typeError

-- One record; the result is the new `prev`.
def checkRecord (rt : Runtime) (expectedSeq : Nat) (prev : Json) (lineNo : Nat) (line : PyStr) :
    Check Json := do
  let record ← loadsText rt line
  let seq ← subscript record (py "seq")
  expect (Json.eqInt expectedSeq seq) lineNo (py "SEQ_MISMATCH")
  let prevHash ← subscript record (py "prev_hash")
  let linked ← compareValue rt prevHash prev
  expect linked lineNo (py "CHAIN_BROKEN")
  let timestamp ← subscript record (py "timestamp")
  let payload ← subscript record (py "payload")
  let digest ← computeHash rt prevHash seq timestamp payload
  let hash ← subscript record (py "hash")
  let matched ← compareValue rt hash (.str digest)
  expect matched lineNo (py "HASH_MISMATCH")
  return hash

structure Progress where
  records : Nat
  errors : List PyStr
  prev : Json

def isMalformed (e : PyExc) : Bool := e.isValueError || e = .keyError || e = .typeError

-- The loop of `verify_chain`. The flag tells whether it ended by `break`.
def verifyLines (rt : Runtime) : Nat → Progress → List PyStr → Except PyExc (Progress × Bool)
  | _, p, [] => .ok (p, false)
  | lineNo, p, line :: lines =>
      if strip line = [] then verifyLines rt (lineNo + 1) p lines
      else match (checkRecord rt p.records p.prev lineNo line).exec p.errors with
        | (.ok prev, errors) => verifyLines rt (lineNo + 1) ⟨p.records + 1, errors, prev⟩ lines
        | (.error e, errors) =>
            if isMalformed e then
              .ok (⟨p.records + 1, errors ++ [lineError lineNo (py "MALFORMED")], p.prev⟩, true)
            else .error e

-- `verify_chain`, where `none` is a missing file.
def verifyChain (rt : Runtime) : Option Bytes → Except PyExc Report
  | none => .ok ⟨0, true, []⟩
  | some content =>
      let stream := readLines content
      match verifyLines rt 1 ⟨0, [], .str genesis⟩ stream.lines with
      | .error e => .error e
      | .ok (p, stopped) =>
          if stream.error && !stopped then .error .unicodeDecode
          else .ok ⟨p.records, p.errors.isEmpty, p.errors⟩

-- The state of a `HashChainLedger` object. Its `head` is what `json.loads` made
-- of the last hash.
structure HashChainLedger where
  seq : Nat
  head : Json
deriving DecidableEq

def lastHash (rt : Runtime) : Json → List PyStr → Except PyExc Json
  | head, [] => .ok head
  | head, line :: lines =>
      if strip line = [] then lastHash rt head lines
      else do
        let record ← loadsText rt line
        let head ← subscript record (py "hash")
        lastHash rt head lines

-- `_read_head`.
def readHead (rt : Runtime) : Option Bytes → Except PyExc Json
  | none => .ok (.str genesis)
  | some content => do
      let stream := readLines content
      let head ← lastHash rt (.str genesis) stream.lines
      if stream.error then .error .unicodeDecode else return head

def integrityMessage (rt : Runtime) (errors : List PyStr) : PyStr :=
  py "ledger integrity violation: " ++ Json.repr rt.printable (.arr ((errors.take 3).map .str))

-- The constructor reads the file twice: `verified` is its content when the chain
-- is verified and `read` its content when the head is read.
def HashChainLedger.init (rt : Runtime) (verified read : Option Bytes) :
    Except PyExc HashChainLedger := do
  let report ← verifyChain rt verified
  if !report.chainValid then .error (.valueError (integrityMessage rt report.errors))
  let head ← readHead rt read
  return ⟨report.recordsChecked, head⟩

def HashChainLedger.record (ledger : HashChainLedger) (timestamp : PyStr) (payload : Json)
    (digest : PyStr) : Json :=
  .obj [(py "seq", .int ledger.seq), (py "timestamp", .str timestamp), (py "prev_hash", ledger.head),
    (py "payload", payload), (py "hash", .str digest)]

-- What `append` leaves behind: the file, the object, and the returned record or
-- the exception.
structure AppendResult where
  file : Option Bytes
  ledger : HashChainLedger
  result : Except PyExc Json
deriving DecidableEq

-- The bytes of the line that `append` writes.
def HashChainLedger.recordLine (rt : Runtime) (ledger : HashChainLedger) (timestamp : PyStr)
    (payload : Json) (digest : PyStr) : Except PyExc Bytes := do
  let text ← dumps rt .record (ledger.record timestamp payload digest)
  encodeUtf8 (text ++ [cp '\n'])

-- Opening the file for appending creates it before the record is serialised.
def HashChainLedger.append (rt : Runtime) (ledger : HashChainLedger) (file : Option Bytes)
    (payload : Json) (timestamp : PyStr) : AppendResult :=
  match computeHash rt ledger.head (.int ledger.seq) (.str timestamp) payload with
  | .error e => ⟨file, ledger, .error e⟩
  | .ok digest =>
      let opened := file.getD []
      match ledger.recordLine rt timestamp payload digest with
      | .error e => ⟨some opened, ledger, .error e⟩
      | .ok line =>
          ⟨some (opened ++ line), ⟨ledger.seq + 1, .str digest⟩,
            .ok (ledger.record timestamp payload digest)⟩

end V91Core.Ledger
