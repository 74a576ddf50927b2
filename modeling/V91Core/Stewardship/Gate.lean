import V91Core.Effect.Mealy
import V91Core.Ledger.Data
import V91Core.Python.Format

namespace V91Core.Stewardship

open V91Core.Python V91Core.Ledger

section Numbers

-- The exact value of a finite number.
def exactValue : PyNum → Option ℚ
  | .int n => some n
  | .float x => (exactDecimal x).map fun d => (if d.neg then -1 else 1) * d.digits * 10 ^ d.exponent

-- The arithmetic of a score. `binary64` is the one of the interpreter, and
-- `exact` computes with rational numbers instead.
structure ScoreArith (S : Type) where
  literal : Nat → Int → S
  toFloat : PyNum → Except PyExc S
  add : S → S → S
  mul : S → S → S
  lt : S → S → Bool
  le : S → S → Bool
  round : Nat → S → Float

def ScoreArith.binary64 : ScoreArith Float where
  literal m e := decimalToFloat false m e
  toFloat := PyNum.toFloat
  add x y := x + y
  mul x y := x * y
  lt x y := (PyNum.float x).lt (.float y)
  le x y := (PyNum.float x).le (.float y)
  round := roundFloat

def ScoreArith.exact : ScoreArith ℚ where
  literal m e := m * 10 ^ e
  toFloat n := ofOption .overflowError (exactValue n)
  add x y := x + y
  mul x y := x * y
  lt x y := x < y
  le x y := x ≤ y
  round places x := decimalToFloat (x < 0) (divRound (x.num.natAbs * 10 ^ places) x.den) (-places)

end Numbers

inductive Decision where
  | approvedAdvisory
  | idle
  | rejectedHumanImpact
deriving DecidableEq

def Decision.text : Decision → PyStr
  | .approvedAdvisory => py "APPROVED_ADVISORY"
  | .idle => py "IDLE"
  | .rejectedHumanImpact => py "REJECTED_HUMAN_IMPACT"

-- The values that `evaluate` reads from a payload.
structure Inputs where
  resourceUtil : PyNum
  entropy : PyNum
  environment : PyNum
  humanImpact : PyNum

section Validation

def rangeError (key : PyStr) : PyExc := .valueError (key ++ py " must be a number in [0, 1]")

-- `0.0 <= value <= 1.0`.
def isProportion (n : PyNum) : Bool := (PyNum.float 0.0).le n && n.le (.float 1.0)

def readNumber (entries : List (PyData × PyData)) (key : PyStr) : Except PyExc PyNum :=
  match PyData.number? ((PyData.get? key entries).getD .none) with
  | none => .error (rangeError key)
  | some n => do
      let finite ← n.isFinite
      if finite && isProportion n then .ok n else .error (rangeError key)

-- `_validate`, with the numbers that it has read.
def validate : PyData → Except PyExc Inputs
  | .dict entries => do
      let resourceUtil ← readNumber entries (py "resource_util")
      let entropy ← readNumber entries (py "entropy")
      let environment ← readNumber entries (py "environment")
      let humanImpact ← readNumber entries (py "human_impact")
      .ok ⟨resourceUtil, entropy, environment, humanImpact⟩
  | _ => .error .attributeError

end Validation

section Scores

variable {S : Type} (A : ScoreArith S)

-- `WEIGHTS`, in hundredths.
def Inputs.weighted (inputs : Inputs) : List (Nat × PyNum) :=
  [(35, inputs.resourceUtil), (35, inputs.entropy), (30, inputs.environment)]

-- `sum` starts with the int 0.
def score (inputs : Inputs) : Except PyExc S :=
  inputs.weighted.foldlM (fun total term => do
    let x ← A.toFloat term.2
    .ok (A.add total (A.mul (A.literal term.1 (-2)) x))) (A.literal 0 0)

-- What `evaluate` knows before it decides.
structure Assessed (S : Type) where
  inputs : Inputs
  score : S

def assess (payload : PyData) : Except PyExc (Assessed S) := do
  let inputs ← validate payload
  let score ← score A inputs
  .ok ⟨inputs, score⟩

def Assessed.vetoed (a : Assessed S) : Bool := (PyNum.float 0.5).le a.inputs.humanImpact

def Assessed.high (a : Assessed S) : Bool := A.lt (A.literal 70 (-2)) a.score

def Assessed.notLow (a : Assessed S) : Bool := A.le (A.literal 50 (-2)) a.score

def recordPayload (target : PyData) (a : Assessed S) (decision : Decision) : PyData :=
  .dict [(.str (py "target"), target),
    (.str (py "input"), .dict [(.str (py "resource_util"), PyData.ofNumber a.inputs.resourceUtil),
      (.str (py "entropy"), PyData.ofNumber a.inputs.entropy),
      (.str (py "environment"), PyData.ofNumber a.inputs.environment),
      (.str (py "human_impact"), PyData.ofNumber a.inputs.humanImpact)]),
    (.str (py "score"), .float (A.round 6 a.score)),
    (.str (py "decision"), .str decision.text),
    (.str (py "executed"), .bool false)]

end Scores

structure StewardshipGate where
  ledger : HashChainLedger
  active : Bool

-- `verified` and `read` are what the file holds when the ledger object verifies
-- it and when it reads its head.
def StewardshipGate.init (rt : Runtime) (verified read : Option Bytes) : Except PyExc StewardshipGate := do
  let ledger ← HashChainLedger.init rt verified read
  .ok ⟨ledger, false⟩

-- What `evaluate` returns.
structure Advice (S : Type) where
  decision : Decision
  score : S
  hash : PyData

structure Evaluated (S : Type) where
  gate : StewardshipGate
  file : Option Bytes
  result : Except PyExc (Advice S)

namespace StewardshipGate

variable {S : Type} (A : ScoreArith S) (rt : Runtime) (gate : StewardshipGate)

-- The decision with the new value of `_active`.
def decide (a : Assessed S) : Decision × Bool :=
  if a.vetoed then (.rejectedHumanImpact, false)
  else if a.high A || (gate.active && a.notLow A) then (.approvedAdvisory, true)
  else (.idle, false)

-- `clock` is the current time as text, and `file` what the ledger file holds.
def evaluate (file : Option Bytes) (target payload : PyData) (clock : Except PyExc PyStr)
    (fault : Option FileFault) : Evaluated S :=
  match assess A payload with
  | .error e => ⟨gate, file, .error e⟩
  | .ok a =>
      let (decision, active) := gate.decide A a
      match clock with
      | .error e => ⟨{ gate with active }, file, .error e⟩
      | .ok timestamp =>
          let appended := gate.ledger.appendData rt file (recordPayload A target a decision) timestamp fault
          ⟨⟨appended.ledger, active⟩, appended.file, do
            let record ← appended.result
            let hash ← ofOption .keyError (PyData.get? (py "hash") record)
            .ok ⟨decision, a.score, hash⟩⟩

end StewardshipGate

end V91Core.Stewardship
