import V91Core.Ledger.Append
import V91Core.Python.Data

namespace V91Core.Ledger

open V91Core.Python

-- The file operation of an append that fails. What was written before stays in
-- the file.
inductive FileFault where
  | opening (e : PyExc)
  | writing (written : Nat) (e : PyExc)

-- What an append of any payload leaves behind, with the entries of the record.
structure DataAppend where
  file : Option Bytes
  ledger : HashChainLedger
  result : Except PyExc (List (PyData × PyData))

section Append

variable (rt : Runtime)

-- `compute_hash`.
def computeDataHash (prevHash seq timestamp : Json) (payload : PyData) : Except PyExc PyStr := do
  let body ← payload.dumps rt .canonical
  let message ← encodeUtf8 (chainText rt prevHash seq timestamp body)
  return rt.sha256Hex message

namespace HashChainLedger

variable (ledger : HashChainLedger)

def dataRecord (timestamp : PyStr) (payload : PyData) (digest : PyStr) : List (PyData × PyData) :=
  [(.str (py "seq"), .int ledger.seq), (.str (py "timestamp"), .str timestamp),
    (.str (py "prev_hash"), .ofJson ledger.head), (.str (py "payload"), payload),
    (.str (py "hash"), .str digest)]

def dataLine (timestamp : PyStr) (payload : PyData) (digest : PyStr) : Except PyExc Bytes := do
  let text ← (PyData.dict (ledger.dataRecord timestamp payload digest)).dumps rt .record
  encodeUtf8 (text ++ [cp '\n'])

-- The `with open(...)` block, which serialises the record after opening the file.
def writeData (file : Option Bytes) (payload : PyData) (timestamp digest : PyStr)
    (fault : Option FileFault) : DataAppend :=
  match fault, ledger.dataLine rt timestamp payload digest with
  | some (.opening e), _ => ⟨file, ledger, .error e⟩
  | _, .error e => ⟨some (file.getD []), ledger, .error e⟩
  | some (.writing written e), .ok line => ⟨some (file.getD [] ++ line.take written), ledger, .error e⟩
  | none, .ok line =>
      ⟨some (file.getD [] ++ line), ⟨ledger.seq + 1, .str digest⟩,
        .ok (ledger.dataRecord timestamp payload digest)⟩

-- `append`, where `fault` is `none` when every file operation succeeds.
def appendData (file : Option Bytes) (payload : PyData) (timestamp : PyStr) (fault : Option FileFault) :
    DataAppend :=
  match computeDataHash rt ledger.head (.int ledger.seq) (.str timestamp) payload with
  | .error e => ⟨file, ledger, .error e⟩
  | .ok digest => ledger.writeData rt file payload timestamp digest fault

-- The record of this payload can be written as JSON in UTF-8.
def Writable (payload : PyData) (timestamp : PyStr) : Prop :=
  ∃ digest, computeDataHash rt ledger.head (.int ledger.seq) (.str timestamp) payload = .ok digest ∧
    ∃ line, ledger.dataLine rt timestamp payload digest = .ok line

end HashChainLedger

end Append

section Spec

variable (rt : Runtime) (ledger : HashChainLedger) (file : Option Bytes) (payload : PyData)
  (timestamp : PyStr) (fault : Option FileFault)

-- An append either returns, and then its record is the new end of the file, or
-- leaves the ledger object as it was.
theorem appendData_cases :
    (∃ digest line, computeDataHash rt ledger.head (.int ledger.seq) (.str timestamp) payload = .ok digest ∧
      ledger.dataLine rt timestamp payload digest = .ok line ∧ fault = none ∧
      ledger.appendData rt file payload timestamp fault = ⟨some (file.getD [] ++ line),
        ⟨ledger.seq + 1, .str digest⟩, .ok (ledger.dataRecord timestamp payload digest)⟩) ∨
    ¬ (ledger.Writable rt payload timestamp ∧ fault = none) ∧
      ∃ file' e, ledger.appendData rt file payload timestamp fault = ⟨file', ledger, .error e⟩ := by
  unfold HashChainLedger.appendData HashChainLedger.Writable
  cases computeDataHash rt ledger.head (.int ledger.seq) (.str timestamp) payload with
  | error e => exact .inr ⟨by simp, file, e, rfl⟩
  | ok digest =>
      simp only [HashChainLedger.writeData]
      cases hline : ledger.dataLine rt timestamp payload digest with
      | error e =>
          refine .inr ⟨by simp [hline], ?_⟩
          rcases fault with _ | ⟨e'⟩ | ⟨written, e'⟩ <;> simp
      | ok line =>
          rcases fault with _ | ⟨e⟩ | ⟨written, e⟩
          · exact .inl ⟨digest, line, rfl, hline, rfl, rfl⟩
          · exact .inr ⟨by simp, file, e, rfl⟩
          · exact .inr ⟨by simp, _, e, rfl⟩

end Spec

-- For JSON data and without a fault this is the `append` of JSON payloads.
theorem appendData_ofJson (rt : Runtime) (ledger : HashChainLedger) (file : Option Bytes) (payload : Json)
    (timestamp : PyStr) :
    (ledger.appendData rt file (.ofJson payload) timestamp none).file =
        (ledger.append rt file payload timestamp).file ∧
      (ledger.appendData rt file (.ofJson payload) timestamp none).ledger =
        (ledger.append rt file payload timestamp).ledger ∧
      (ledger.appendData rt file (.ofJson payload) timestamp none).result.map PyData.dict =
        (ledger.append rt file payload timestamp).result.map .ofJson := by
  have hhash : computeDataHash rt ledger.head (.int ledger.seq) (.str timestamp) (.ofJson payload) =
      computeHash rt ledger.head (.int ledger.seq) (.str timestamp) payload := by
    rw [computeDataHash, computeHash, chainMessage, PyData.dumps_ofJson, bind_assoc]
  have hrecord : ∀ digest, .dict (ledger.dataRecord timestamp (.ofJson payload) digest) =
      PyData.ofJson (ledger.record timestamp payload digest) := fun _ => rfl
  have hline : ∀ digest, ledger.dataLine rt timestamp (.ofJson payload) digest =
      ledger.recordLine rt timestamp payload digest := by
    intro digest
    rw [HashChainLedger.dataLine, hrecord, PyData.dumps_ofJson, HashChainLedger.recordLine]
  unfold HashChainLedger.appendData HashChainLedger.append
  rw [hhash]
  cases computeHash rt ledger.head (.int ledger.seq) (.str timestamp) payload with
  | error e => exact ⟨rfl, rfl, rfl⟩
  | ok digest =>
      simp only [HashChainLedger.writeData, hline]
      cases ledger.recordLine rt timestamp payload digest with
      | error e => exact ⟨rfl, rfl, rfl⟩
      | ok line => exact ⟨rfl, rfl, rfl⟩

end V91Core.Ledger
