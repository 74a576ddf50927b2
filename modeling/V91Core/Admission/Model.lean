import V91Core.Python.Data
import V91Core.Python.Format

namespace V91Core.Admission

open V91Core.Python

inductive Verdict where
  | allowed
  | denied
deriving DecidableEq

def Verdict.name : Verdict → PyStr
  | .allowed => py "ALLOWED_LOCAL"
  | .denied => py "DENIED_LOCAL"

structure ResourceMeasurements where
  cpuCores : Option PyNum
  ramMb : Option PyNum
  vramMb : Option PyNum
  diskMb : Option PyNum
  measuredAt : PyNum

-- The fields with this flag, in order.
def flagged (fields : List (PyStr × Bool)) : List PyStr := (fields.filter Prod.snd).map Prod.fst

-- `value is None or value <= 0`.
def isMissing : Option PyNum → Bool
  | none => true
  | some value => value.le (.int 0)

def ResourceMeasurements.missingFields (m : ResourceMeasurements) : List PyStr :=
  flagged [(py "cpu_cores", isMissing m.cpuCores), (py "ram_mb", isMissing m.ramMb), (py "disk_mb", isMissing m.diskMb)]

-- The fields are not checked when a request is made.
structure AdmissionRequest where
  cpuCores : PyData
  ramMb : PyData
  diskMb : PyData
  vramMb : PyData

-- No int or float, or one that is not positive.
def isBadNumber (value : PyData) : Bool :=
  match value.number? with
  | some n => n.le (.int 0)
  | none => true

-- No int, or one with this property.
def isBadInt (bad : Int → Bool) : PyData → Bool
  | .int n => bad n
  | _ => true

-- VRAM that is not required is `None`.
def isNone : PyData → Bool
  | .none => true
  | _ => false

def AdmissionRequest.invalidFields (r : AdmissionRequest) : List PyStr :=
  flagged [(py "cpu_cores", isBadNumber r.cpuCores), (py "ram_mb", isBadInt (· ≤ 0) r.ramMb),
    (py "disk_mb", isBadInt (· < 0) r.diskMb), (py "vram_mb", !isNone r.vramMb && isBadInt (· ≤ 0) r.vramMb)]

structure AdmissionDecision where
  verdict : Verdict
  reason : PyStr
  measurements : Option ResourceMeasurements

structure ResourceAdmissionGate where
  freshness : Float
  quota : List (PyStr × PyData)

def newGate (clockCallable measureCallable : Bool) (freshnessSeconds : PyData)
    (quota : Option (List (PyStr × PyData))) : Except PyExc ResourceAdmissionGate :=
  if !clockCallable then .error (.admissionError (py "clock must be callable"))
  else
    match freshnessSeconds.number? with
    | none => .error (.admissionError (py "freshness_seconds must be positive"))
    | some n =>
        if n.le (.int 0) then .error (.admissionError (py "freshness_seconds must be positive"))
        else if !measureCallable then .error (.admissionError (py "adapter must provide a callable measure()"))
        else n.toFloat.map fun freshness => ⟨freshness, quota.getD []⟩

-- NaN is not `<= 0`, and becomes the freshness.
example : ((newGate true true (.float (0.0 / 0.0)) none).map fun gate => gate.freshness.isNaN).toOption =
    some true := by
  decide +kernel

section Quota

-- `getattr(m, key, None)`: a number, or an object with a comparison of its own.
inductive Attribute where
  | absent
  | number (n : PyNum)
  | object (exceeds : PyData → Except PyExc Bool)

def Attribute.ofMeasured : Option PyNum → Attribute
  | none => .absent
  | some n => .number n

-- `others` are the attributes of the class that are no fields.
variable (others : PyStr → Attribute)

def getattr (m : ResourceMeasurements) (key : PyStr) : Attribute :=
  if key = py "cpu_cores" then .ofMeasured m.cpuCores
  else if key = py "ram_mb" then .ofMeasured m.ramMb
  else if key = py "vram_mb" then .ofMeasured m.vramMb
  else if key = py "disk_mb" then .ofMeasured m.diskMb
  else if key = py "measured_at" then .number m.measuredAt
  else others key

-- What a number is compared with. A bool is a number here.
def comparand (limit : PyData) : Option PyNum :=
  match limit with
  | .bool b => some (.int b.toNat)
  | limit => limit.number?

-- `value is not None and value > limit`.
def exceeds (limit : PyData) : Attribute → Except PyExc Bool
  | .absent => .ok false
  | .number n =>
      match comparand limit with
      | some l => .ok (l.lt n)
      | none => .error .typeError
  | .object exceeds => exceeds limit

def quotaViolations (m : ResourceMeasurements) : List (PyStr × PyData) → Except PyExc (List PyStr)
  | [] => .ok []
  | (key, limit) :: quota => do
      let violated ← exceeds limit (getattr others m key)
      let violations ← quotaViolations m quota
      .ok (if violated then key :: violations else violations)

end Quota

section Request

variable (rt : Runtime) (others : PyStr → Attribute) (gate : ResourceAdmissionGate)

def namesText (names : List PyStr) : PyStr := Json.repr rt.printable (.arr (names.map .str))

-- A field that is valid is a number.
def amount (value : PyData) : PyNum := value.number?.getD (.int 0)

def deficit (name : PyStr) (requested : PyData) (measured : PyNum) : Except PyExc (List PyStr) :=
  if measured.lt (amount requested) then do
    let requestedText ← requested.toStr rt
    let measuredText ← (PyData.ofNumber measured).toStr rt
    .ok [name ++ cp ' ' :: requestedText ++ py " > " ++ measuredText]
  else .ok []

-- VRAM that is required and was not measured is `none`.
def vramDeficit (requested : PyData) (measured : Option PyNum) : Except PyExc (Option (List PyStr)) :=
  if isNone requested then .ok (some [])
  else
    match measured with
    | none => .ok none
    | some measured => (deficit rt (py "vram_mb") requested measured).map some

def conclude (m : ResourceMeasurements) : Option (List PyStr) → AdmissionDecision
  | none =>
      ⟨.denied, py "VRAM required but never measured on this host " ++ py "(UNKNOWN is never unlimited).", some m⟩
  | some [] =>
      ⟨.allowed, py "All requirements measured, fresh, sufficient and within local " ++
        py "quota; admission is permission for LOCAL work only.", some m⟩
  | some deficits => ⟨.denied, py "Insufficient resources: " ++ Json.joinWith (py "; ") deficits ++ py ".", some m⟩

-- The comparisons with the resources that must be measured.
def compareResources (request : AdmissionRequest) (m : ResourceMeasurements) : Except PyExc AdmissionDecision :=
  match m.cpuCores, m.ramMb, m.diskMb with
  | some cpuCores, some ramMb, some diskMb => do
      let cpu ← deficit rt (py "cpu_cores") request.cpuCores cpuCores
      let ram ← deficit rt (py "ram_mb") request.ramMb ramMb
      let disk ← deficit rt (py "disk_mb") request.diskMb diskMb
      let vram ← vramDeficit rt request.vramMb m.vramMb
      .ok (conclude m (vram.map fun vram => cpu ++ ram ++ disk ++ vram))
  | _, _, _ => .error .typeError

def staleReason (age : PyNum) : Except PyExc PyStr :=
  age.toFloat.map fun seconds => py "Stale measurement (age " ++ formatFixed 1 seconds ++ py "s > " ++
    formatFixed 1 gate.freshness ++ py "s)."

-- The checks on what was measured, at the time `now`.
def checkMeasured (request : AdmissionRequest) (m : ResourceMeasurements) (now : PyNum) :
    Except PyExc AdmissionDecision := do
  let age ← now.sub m.measuredAt
  if (PyNum.float gate.freshness).lt age then
    let reason ← staleReason gate age
    .ok ⟨.denied, reason, some m⟩
  else
    let violations ← quotaViolations others m gate.quota
    if violations = [] then compareResources rt request m
    else .ok ⟨.denied, py "Local quota exceeded for: " ++ namesText rt violations ++ py ".", some m⟩

-- `measured` is what the adapter returns, if it is a `ResourceMeasurements`, and `now`
-- what the clock returns.
def requestAdmission (request : AdmissionRequest) (measured : Option ResourceMeasurements) (now : PyNum) :
    Except PyExc AdmissionDecision :=
  if request.invalidFields ≠ [] then
    .ok ⟨.denied, py "Malformed request, invalid fields: " ++ namesText rt request.invalidFields ++ py ".", none⟩
  else
    match measured with
    | none => .ok ⟨.denied, py "Adapter returned no valid measurements.", none⟩
    | some m =>
        if m.missingFields ≠ [] then
          .ok ⟨.denied, py "UNKNOWN is never unlimited: unmeasured resource(s) " ++ namesText rt m.missingFields ++
            py " -> NO_CAPACITY.", some m⟩
        else checkMeasured rt others gate request m now

end Request

end V91Core.Admission
