import V91Core.Effect.Eval
import V91Core.Effect.Run
import V91Core.Python.Data
import V91Core.Python.Deque
import V91Core.Python.FloatText
import V91Core.Python.Stdev

namespace V91Core.Anomaly

open V91Core.Python V91Core.Effect V91Core.Numeric

section Conversion

def notAFloat : PyExc := .valueError (py "could not convert string to float")

def floatOfText (text : PyStr) : Except PyExc Float := ofOption notAFloat ((floatText text).map Numeral.toFloat)

-- `float(value)`. For an object of another class, `foreign` is what its class makes of it.
def toFloat (foreign : Except PyExc Float) : PyData → Except PyExc Float
  | .bool b => (PyNum.int b.toNat).toFloat
  | .int n => (PyNum.int n).toFloat
  | .float x => .ok x
  | .str text => floatOfText text
  | .bytes bs => if bs.all (· < 0x80) then floatOfText (bs.map fun b => chr b.toNat) else .error notAFloat
  | .foreign _ => foreign
  | _ => .error .typeError

end Conversion

inductive Metric where
  | latency
  | errors
  | events
deriving DecidableEq

def Metric.name : Metric → PyStr
  | .latency => py "latency"
  | .errors => py "errors"
  | .events => py "events"

def metricOf (metric : PyData) : Option Metric :=
  [Metric.latency, .errors, .events].find? fun m => metric.isStr m.name

structure AnomalyDetector where
  windowSize : Nat
  zThreshold : PyNum
  windows : Metric → Deque Float windowSize

-- The arguments of a call of `detect`.
structure Sample where
  metric : PyData
  value : PyData
  foreign : Except PyExc Float

namespace AnomalyDetector

-- The greatest `maxlen` of a deque.
def maxSsize : Int := 2 ^ 63 - 1

def init (windowSize zThreshold : PyData) : Except PyExc AnomalyDetector := do
  let size ← ofOption (.valueError (py "window_size must be an integer of at least 5"))
    (match windowSize with
      | .int n => if n < 5 then none else some n.toNat
      | _ => none)
  let z ← ofOption (.valueError (py "z_threshold must be a finite positive number")) zThreshold.number?
  let finite ← z.isFinite
  if !finite || z.le (.int 0) then .error (.valueError (py "z_threshold must be a finite positive number"))
  else if maxSsize < size then .error .overflowError
  else .ok ⟨size, z, fun _ => .empty⟩

-- The comparison with the values before.
def isAnomaly (zThreshold : PyNum) (values : List Float) (candidate : Float) : Except PyExc Bool :=
  if values.length < 5 then .ok false
  else do
    let baselineMean ← mean values
    let baselineStdev ← stdev values
    if baselineStdev == 0 then .ok (candidate != baselineMean)
    else .ok (zThreshold.lt (.float ((candidate - baselineMean) / baselineStdev).abs))

variable (d : AnomalyDetector)

def record (m : Metric) (x : Float) : AnomalyDetector :=
  { d with windows := fun other => if other = m then (d.windows m).append x else d.windows other }

def measure (m : Metric) (candidate : Float) : Except PyExc (Bool × AnomalyDetector) :=
  if Json.isFinite candidate then do
    let answer ← isAnomaly d.zThreshold (d.windows m).items candidate
    .ok (answer, d.record m candidate)
  else .ok (false, d)

def detect (s : Sample) : Except PyExc (Bool × AnomalyDetector) :=
  match metricOf s.metric with
  | none => .ok (false, d)
  | some m =>
      if s.value.isBool then .ok (false, d)
      else match toFloat s.foreign s.value with
        | .ok candidate => d.measure m candidate
        | .error e => if e.isTypeError || e.isValueError then .ok (false, d) else .error e

-- A call that raises leaves the detector as it is.
def after (s : Sample) : AnomalyDetector :=
  match d.detect s with
  | .ok (_, d') => d'
  | .error _ => d

end AnomalyDetector

end V91Core.Anomaly
