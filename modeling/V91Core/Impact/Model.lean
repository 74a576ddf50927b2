import V91Core.Manifest.Signed
import V91Core.Numeric.HalfEven
import V91Core.Python.FloatText
import V91Core.Python.Format
import V91Core.Python.Statistics
import Mathlib.Analysis.SpecialFunctions.Pow.Real

namespace V91Core.Impact

open V91Core.Python V91Core.Numeric

section Arithmetic

-- The arithmetic of an evaluation. `binary64` is the one of the interpreter, and
-- `exact` computes with real numbers instead. A value that is not finite is `none`.
structure Arith (N : Type) where
  ofNumeral : Numeral → Option N
  ofNum : PyNum → Except PyExc (Option N)
  isFinite : N → Bool
  literal : Nat → Int → N
  ratio : Nat → Nat → N
  mean : List N → Except PyExc N
  variance : List N → Except PyExc N
  sqrt : N → Except PyExc N
  round : Nat → N → N
  add : N → N → N
  sub : N → N → N
  mul : N → N → N
  div : N → N → N
  abs : N → N
  lt : N → N → Bool
  le : N → N → Bool

def finiteFloat (x : Float) : Option Float := if Json.isFinite x then some x else none

def Arith.binary64 : Arith Float where
  ofNumeral n := finiteFloat n.toFloat
  ofNum a := a.toFloat.map finiteFloat
  isFinite := Json.isFinite
  literal m e := decimalToFloat false m e
  ratio m n := nearestFloat (m / n)
  mean := V91Core.Python.mean
  variance := V91Core.Python.variance
  sqrt := mathSqrt
  round := roundFloat
  add x y := x + y
  sub x y := x - y
  mul x y := x * y
  div x y := x / y
  abs := Float.abs
  lt x y := (PyNum.float x).lt (.float y)
  le x y := (PyNum.float x).le (.float y)

def numeralRat : Numeral → Option ℚ
  | .decimal neg digits exponent => some (Decimal.toRat ⟨neg, digits, exponent⟩)
  | _ => none

def numRat : PyNum → Option ℚ
  | .int n => some n
  | .float x => (exactDecimal x).map Decimal.toRat

open Classical in
noncomputable def Arith.exact : Arith ℝ where
  ofNumeral n := (numeralRat n).map fun q => (q : ℝ)
  ofNum a := .ok ((numRat a).map fun q => (q : ℝ))
  isFinite _ := true
  literal m e := m * (10 : Nat) ^ e
  ratio m n := m / n
  mean xs := .ok (meanOf xs)
  variance xs := .ok (varianceOf xs)
  sqrt x := .ok (Real.sqrt x)
  round := roundPlaces
  add x y := x + y
  sub x y := x - y
  mul x y := x * y
  div x y := x / y
  abs x := |x|
  lt x y := x < y
  le x y := x ≤ y

end Arithmetic

section Rows

-- A cell of a row: a text, the `None` of a row that is too short, or a number.
inductive Cell where
  | none
  | text (s : PyStr)
  | number (a : PyNum)
deriving DecidableEq

-- The columns that an evaluation reads. A column may be missing.
structure Row where
  timestamp : Option Cell
  value : Option Cell
  sourceType : Option Cell
deriving DecidableEq

structure Sample (N : Type) where
  timestamp : DateTime
  value : N
  source : PyStr

-- `str(cell)`.
def Cell.str : Cell → Except PyExc PyStr
  | .none => .ok (py "None")
  | .text s => .ok s
  | .number (.int n) => PyData.intRepr n
  | .number (.float x) => .ok (Json.reprFloat x)

def sourceConfidence : List (PyStr × (Nat × Int)) :=
  [(py "direct_sensor", (100, -2)), (py "calculated", (90, -2)), (py "estimated", (70, -2)),
    (py "manual_entry", (60, -2))]

def minSamples : Nat := 5

variable {N : Type} (A : Arith N)

-- `float(cell)`, where `none` is a value that is not finite.
def Cell.float : Cell → Except PyExc (Option N)
  | .none => .error .typeError
  | .text s => (ofOption (.valueError (py "could not convert string to float")) (floatText s)).map A.ofNumeral
  | .number a => A.ofNum a

-- `SOURCE_CONFIDENCE[source]`.
def confidence (source : PyStr) : Option N :=
  (sourceConfidence.lookup source).map fun c => A.literal c.1 c.2

-- The body of the `try` block. The caller drops the texts of its errors.
def readSample (row : Row) : Except PyExc (Sample N) := do
  let cell ← ofOption .keyError row.timestamp
  let text ← cell.str
  let ts ← ofOption (.valueError (py "Invalid isoformat string")) (fromIsoFormat (Manifest.replaceZulu text))
  let cell ← ofOption .keyError row.value
  let value ← cell.float A
  let source ← (row.sourceType.getD (.text [])).str
  let value ← ofOption (.valueError []) value
  if (confidence A (strip source)).isSome then .ok ⟨ts, value, strip source⟩ else .error (.valueError [])

-- `except (KeyError, ValueError, TypeError)`.
def isRejection (e : PyExc) : Bool := e = .keyError || e.isValueError || e.isTypeError

-- `_parse`: the good samples and the number of rejected rows.
def parse : List Row → Except PyExc (List (Sample N) × Nat)
  | [] => .ok ([], 0)
  | row :: rows =>
      match readSample A row with
      | .ok s => (parse rows).map fun (good, bad) => (s :: good, bad)
      | .error e => if isRejection e then (parse rows).map fun (good, bad) => (good, bad + 1) else .error e

end Rows

section Order

-- A naive and an aware datetime do not compare. Aware ones compare as instants.
def timeLt (a b : DateTime) : Except PyExc Bool :=
  match a.offset, b.offset with
  | some x, some y => .ok ((a.wall : Int) - x < b.wall - y)
  | none, none => .ok (a.wall < b.wall)
  | _, _ => .error .typeError

-- The first of the items that no other one beats.
def pick (beats : DateTime → DateTime → Except PyExc Bool) (first : DateTime) (rest : List DateTime) :
    Except PyExc DateTime :=
  rest.foldlM (fun best t => (beats t best).map fun better => if better then t else best) first

def maxTime : DateTime → List DateTime → Except PyExc DateTime := pick fun t best => timeLt best t

def minTime : DateTime → List DateTime → Except PyExc DateTime := pick timeLt

-- `base and after and max(...) >= min(...)`.
def overlaps : List DateTime → List DateTime → Except PyExc Bool
  | [], _ | _, [] => .ok false
  | b :: base, a :: after => do
      let last ← maxTime b base
      let first ← minTime a after
      let before ← timeLt last first
      .ok (!before)

end Order

section Evaluation

inductive Status where
  | valid
  | noImprovement
  | quarantine
deriving DecidableEq

inductive Flag where
  | tooFewSamples
  | temporalError
  | lowDqi
  | notSignificant
deriving DecidableEq

structure Co2 (N : Type) where
  savedKgPerSample : N
  factorKgPerUnit : N
  factorSource : PyStr

structure Statistics (N : Type) where
  baselineMean : N
  afterMean : N
  savedPerSample : N
  noiseStderr : N
  co2 : Option (Co2 N)

structure Record (N : Type) where
  measure : PyStr
  unit : PyStr
  nBaseline : Nat
  nAfter : Nat
  rejectedRows : Nat
  dqi : N
  statistics : Option (Statistics N)
  status : Status
  flags : List Flag

variable {N : Type} (A : Arith N)

-- `_dqi`.
def dataQuality (samples : List (Sample N)) (rejected : Nat) : Except PyExc N :=
  if samples = [] then .ok (A.literal 0 0)
  else do
    let completeness := A.ratio samples.length (samples.length + rejected)
    let confidences ← samples.mapM fun s => ofOption .keyError (confidence A s.source)
    let confidence ← A.mean confidences
    .ok (A.round 4 (A.mul completeness confidence))

-- The factor with its source, or the refusal of the two arguments.
def checkCo2 (factor : Option N) (source : Option PyStr) : Except PyExc (Option (N × PyStr)) :=
  match factor with
  | none => .ok none
  | some factor =>
      if strip (source.getD []) = [] then
        .error (.valueError (py "co2_source is required when a CO2 factor is given"))
      else if !A.isFinite factor || A.lt factor (A.literal 0 0) then
        .error (.valueError (py "co2 factor must be a finite non-negative number"))
      else .ok (some (factor, strip (source.getD [])))

-- The block on two means and their difference, with whether the difference is
-- within the noise.
def compare (base after : List (Sample N)) (higherIsWorse : Bool) (co2 : Option (N × PyStr)) :
    Except PyExc (Statistics N × Bool) := do
  let baseValues := base.map Sample.value
  let afterValues := after.map Sample.value
  let baseMean ← A.mean baseValues
  let afterMean ← A.mean afterValues
  let diff := if higherIsWorse then A.sub baseMean afterMean else A.sub afterMean baseMean
  let baseVariance ← A.variance baseValues
  let afterVariance ← A.variance afterValues
  let noise ← A.sqrt (A.add (A.div baseVariance (A.literal baseValues.length 0))
    (A.div afterVariance (A.literal afterValues.length 0)))
  let saved := co2.map fun (factor, source) => ⟨A.round 6 (A.mul diff factor), factor, source⟩
  .ok (⟨A.round 6 baseMean, A.round 6 afterMean, A.round 6 diff, A.round 6 noise, saved⟩,
    A.le (A.abs diff) (A.mul (A.literal 2 0) noise))

-- `len(base) >= 2 and len(after) >= 2` guards the block.
def compareIfEnough (base after : List (Sample N)) (higherIsWorse : Bool) (co2 : Option (N × PyStr)) :
    Except PyExc (Option (Statistics N) × Bool) :=
  if 2 ≤ base.length ∧ 2 ≤ after.length then
    (compare A base after higherIsWorse co2).map fun (statistics, noisy) => (some statistics, noisy)
  else .ok (none, false)

-- Without flags, the sign of the rounded difference decides.
def statusOf (flags : List Flag) (statistics : Option (Statistics N)) : Except PyExc Status :=
  if flags = [] then
    match statistics with
    | some s => .ok (if A.lt (A.literal 0 0) s.savedPerSample then .valid else .noImprovement)
    | none => .error .keyError
  else .ok .quarantine

def flagIf (raised : Bool) (flag : Flag) : List Flag := if raised then [flag] else []

def computeImpact (measure : PyStr) (baselineRows afterRows : List Row) (unit : PyStr) (co2Factor : Option N)
    (higherIsWorse : Bool) (co2Source : Option PyStr) : Except PyExc (Record N) := do
  let co2 ← checkCo2 A co2Factor co2Source
  let (base, baseBad) ← parse A baselineRows
  let (after, afterBad) ← parse A afterRows
  let tooFew := base.length < minSamples || after.length < minSamples
  let overlap ← overlaps (base.map Sample.timestamp) (after.map Sample.timestamp)
  let baseDqi ← dataQuality A base baseBad
  let afterDqi ← dataQuality A after afterBad
  let dqi := A.round 4 (if A.lt afterDqi baseDqi then afterDqi else baseDqi)
  let low := A.lt dqi (A.literal 85 (-2))
  let (statistics, noisy) ← compareIfEnough A base after higherIsWorse co2
  let flags := flagIf tooFew .tooFewSamples ++ flagIf overlap .temporalError ++ flagIf low .lowDqi ++
    flagIf noisy .notSignificant
  let status ← statusOf A flags statistics
  .ok ⟨measure, unit, base.length, after.length, baseBad + afterBad, dqi, statistics, status, flags⟩

end Evaluation

end V91Core.Impact
