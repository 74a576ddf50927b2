import V91Core.Python.Data

namespace V91Core.Guard

open V91Core.Python

inductive ActionClass where
  | readOnly
  | localAnalysis
  | resourceEfficiency
  | fileWrite
  | networkRead
  | networkWrite
  | modelChange
  | productionChange
  | weaponsDevelopment
  | targetSelectionForViolence
  | autonomousAttack
  | unauthorizedPropagation
  | credentialExfiltration
  | destructiveCleanup
deriving DecidableEq

def ActionClass.name : ActionClass → PyStr
  | .readOnly => py "read_only"
  | .localAnalysis => py "local_analysis"
  | .resourceEfficiency => py "resource_efficiency"
  | .fileWrite => py "file_write"
  | .networkRead => py "network_read"
  | .networkWrite => py "network_write"
  | .modelChange => py "model_change"
  | .productionChange => py "production_change"
  | .weaponsDevelopment => py "weapons_development"
  | .targetSelectionForViolence => py "target_selection_for_violence"
  | .autonomousAttack => py "autonomous_attack"
  | .unauthorizedPropagation => py "unauthorized_propagation"
  | .credentialExfiltration => py "credential_exfiltration"
  | .destructiveCleanup => py "destructive_cleanup"

def deniedClasses : List ActionClass :=
  [.weaponsDevelopment, .targetSelectionForViolence, .autonomousAttack, .unauthorizedPropagation,
    .credentialExfiltration, .destructiveCleanup]

def knownClasses : List ActionClass :=
  [.readOnly, .localAnalysis, .resourceEfficiency, .fileWrite, .networkRead, .networkWrite, .modelChange,
    .productionChange] ++ deniedClasses

def networkClasses : List ActionClass := [.networkRead, .networkWrite]

def mutatingClasses : List ActionClass := [.fileWrite, .networkWrite, .modelChange, .productionChange]

-- The class in `KNOWN_CLASSES` that this text names.
def ActionClass.ofName? (name : PyStr) : Option ActionClass := knownClasses.find? (·.name = name)

theorem ActionClass.ofName?_eq_some (name : PyStr) (c : ActionClass) :
    ActionClass.ofName? name = some c ↔ c.name = name := by
  have hname : ∀ c : ActionClass, ActionClass.ofName? c.name = some c := by
    intro c
    cases c <;> decide
  constructor
  · intro h
    simpa using List.find?_some h
  · rintro rfl
    exact hname c

-- A policy that has passed `__post_init__`.
structure GuardPolicy where
  allowedCapabilities : List ActionClass
  maxSteps : Nat
  maxExternalCalls : Nat
  maxCostUnits : Nat
  maxOutputBytes : Nat
  allowNetwork : Bool
  allowModelChanges : Bool
  allowProductionChanges : Bool
  requireHumanApprovalForMutations : Bool

-- The arguments of the constructor. `none` stands for capabilities that are not a set.
structure PolicyArgs where
  allowedCapabilities : Option (List PyData)
  maxSteps : PyData
  maxExternalCalls : PyData
  maxCostUnits : PyData
  maxOutputBytes : PyData
  allowNetwork : PyData
  allowModelChanges : PyData
  allowProductionChanges : PyData
  requireHumanApprovalForMutations : PyData

def PolicyArgs.default : PolicyArgs where
  allowedCapabilities := some [.str (py "read_only"), .str (py "local_analysis")]
  maxSteps := .int 100
  maxExternalCalls := .int 0
  maxCostUnits := .int 100
  maxOutputBytes := .int 1000000
  allowNetwork := .bool false
  allowModelChanges := .bool false
  allowProductionChanges := .bool false
  requireHumanApprovalForMutations := .bool true

section PostInit

def limit (name : String) : PyData → Except PyExc Nat
  | .int n =>
      if n < 0 then .error (.valueError (py (name ++ " must be a non-negative integer"))) else .ok n.toNat
  | _ => .error (.valueError (py (name ++ " must be a non-negative integer")))

def flag (name : String) : PyData → Except PyExc Bool
  | .bool b => .ok b
  | _ => .error (.valueError (py (name ++ " must be a boolean")))

def capability : PyData → Except PyExc ActionClass
  | .str name =>
      ofOption (.valueError (py "allowed_capabilities contains an unknown capability")) (ActionClass.ofName? name)
  | _ => .error (.valueError (py "allowed_capabilities contains an unknown capability"))

def capabilities : Option (List PyData) → Except PyExc (List ActionClass)
  | none => .error (.valueError (py "allowed_capabilities must be a set of known capability names"))
  | some items => items.mapM capability

def GuardPolicy.postInit (args : PolicyArgs) : Except PyExc GuardPolicy := do
  let maxSteps ← limit "max_steps" args.maxSteps
  let maxExternalCalls ← limit "max_external_calls" args.maxExternalCalls
  let maxCostUnits ← limit "max_cost_units" args.maxCostUnits
  let maxOutputBytes ← limit "max_output_bytes" args.maxOutputBytes
  let allowedCapabilities ← capabilities args.allowedCapabilities
  let allowNetwork ← flag "allow_network" args.allowNetwork
  let allowModelChanges ← flag "allow_model_changes" args.allowModelChanges
  let allowProductionChanges ← flag "allow_production_changes" args.allowProductionChanges
  let requireHumanApprovalForMutations ←
    flag "require_human_approval_for_mutations" args.requireHumanApprovalForMutations
  .ok ⟨allowedCapabilities, maxSteps, maxExternalCalls, maxCostUnits, maxOutputBytes, allowNetwork,
    allowModelChanges, allowProductionChanges, requireHumanApprovalForMutations⟩

def GuardPolicy.args (p : GuardPolicy) : PolicyArgs where
  allowedCapabilities := some (p.allowedCapabilities.map fun c => .str c.name)
  maxSteps := .int p.maxSteps
  maxExternalCalls := .int p.maxExternalCalls
  maxCostUnits := .int p.maxCostUnits
  maxOutputBytes := .int p.maxOutputBytes
  allowNetwork := .bool p.allowNetwork
  allowModelChanges := .bool p.allowModelChanges
  allowProductionChanges := .bool p.allowProductionChanges
  requireHumanApprovalForMutations := .bool p.requireHumanApprovalForMutations

-- The defaults of the class.
def GuardPolicy.default : GuardPolicy :=
  ⟨[.readOnly, .localAnalysis], 100, 0, 100, 1000000, false, false, false, true⟩

theorem capabilities_names (classes : List ActionClass) :
    capabilities (some (classes.map fun c => .str c.name)) = .ok classes := by
  have hone : ∀ c : ActionClass, capability (.str c.name) = .ok c := by
    intro c
    rw [capability, (ActionClass.ofName?_eq_some c.name c).mpr rfl]
    rfl
  rw [capabilities]
  induction classes with
  | nil => rfl
  | cons c classes ih =>
      rw [List.map_cons, List.mapM_cons, hone, ih]
      rfl

-- Every policy passes its own checks, so the constructor can build each of them.
theorem GuardPolicy.postInit_args (p : GuardPolicy) : GuardPolicy.postInit p.args = .ok p := by
  have hlimit : ∀ name (n : Nat), limit name (.int n) = .ok n := by
    intro name n
    rw [limit, if_neg (by omega), Int.toNat_natCast]
  simp only [GuardPolicy.postInit, GuardPolicy.args, hlimit, flag, capabilities_names, bind, Except.bind]

example : GuardPolicy.postInit .default = .ok .default := GuardPolicy.postInit_args .default

end PostInit

-- A request as far as `get`, `in` and `[]` tell it.
abbrev Request := PyStr → Option PyData

-- `request.get(key)`.
def Request.get (r : Request) (key : String) : PyData := (r (py key)).getD .none

inductive PolicyArg where
  | absent
  | given (p : GuardPolicy)
  | other

structure GuardDecision where
  allowed : Bool
  code : PyStr
  reason : PyStr
  actionClass : PyStr
  audit : List (PyStr × PyData)

-- How the checks end before the last line: with a refusal or with an exception.
inductive Stop where
  | deny (code reason : PyStr)
  | raise (e : PyExc)

section Checks

def require (ok : Bool) (code reason : String) : Except Stop Unit :=
  if ok then .ok () else .error (.deny (py code) (py reason))

-- `isinstance(value, str) and value.strip()`.
def isText : PyData → Bool
  | .str s => strip s ≠ []
  | _ => false

def isShortText : PyData → Bool
  | .str s => strip s ≠ [] && s.length ≤ 500
  | _ => false

def checkTexts (r : Request) : Except Stop Unit := do
  require (isText (r.get "action_id")) "MISSING_ACTION_ID" "Action ID fehlt."
  require (isShortText (r.get "purpose")) "INVALID_PURPOSE" "Zweck fehlt oder ist länger als 500 Zeichen."
  require (isShortText (r.get "expected_effect")) "INVALID_EXPECTED_EFFECT"
    "Erwartete Wirkung fehlt oder ist zu lang."

def knownClass (value : PyData) : Except Stop ActionClass :=
  ofOption (.deny (py "UNKNOWN_ACTION_CLASS") (py "Unbekannte Handlungsklasse: fail-closed."))
    (match value with
      | .str name => ActionClass.ofName? name
      | _ => none)

def flagFields : List String := ["network_required", "model_change", "production_change"]

-- `field not in request or type(request[field]) is bool`.
def isFlag : Option PyData → Bool
  | none | some (.bool _) => true
  | _ => false

def checkFlags (r : Request) : List String → Except Stop Unit
  | [] => .ok ()
  | field :: fields => do
      require (isFlag (r (py field))) "INVALID_BOOLEAN_FLAG" (field ++ " muss boolesch sein.")
      checkFlags r fields

-- `numeric_fields`.
def GuardPolicy.numericFields (p : GuardPolicy) : List (String × Nat) :=
  [("steps", p.maxSteps), ("external_calls", p.maxExternalCalls), ("cost_units", p.maxCostUnits),
    ("output_bytes", p.maxOutputBytes)]

-- `request.get(field, 0)`.
def Request.estimate (r : Request) (field : String) : PyData := (r (py field)).getD (.int 0)

def limitReason (field : String) (value : Int) (maximum : Nat) : Except PyExc PyStr := do
  let value ← PyData.intRepr value
  let maximum ← PyData.intRepr maximum
  .ok (py field ++ py "=" ++ value ++ py " überschreitet das Limit " ++ maximum ++ py ".")

def checkEstimate (field : String) (maximum : Nat) (value : PyData) : Except Stop Unit :=
  let invalid : Except Stop Unit := .error (.deny (py "INVALID_RESOURCE_ESTIMATE")
    (py (field ++ " muss eine nicht-negative Ganzzahl sein.")))
  match value with
  | .int n =>
      if n < 0 then invalid
      else if maximum < n then
        match limitReason field n maximum with
        | .ok reason => .error (.deny (py "RESOURCE_LIMIT_EXCEEDED") reason)
        | .error e => .error (.raise e)
      else .ok ()
  | _ => invalid

def checkEstimates (r : Request) : List (String × Nat) → Except Stop Unit
  | [] => .ok ()
  | (field, maximum) :: fields => do
      checkEstimate field maximum (r.estimate field)
      checkEstimates r fields

-- `request.get(field, False)` as a condition.
def Request.declares (r : Request) (field : String) : Bool := ((r (py field)).getD (.bool false)).truthy

def GuardPolicy.checkEffects (p : GuardPolicy) (approved : Bool) (r : Request) (c : ActionClass) :
    Except Stop Unit := do
  if c ∉ p.allowedCapabilities then
    .error (.deny (py "CAPABILITY_NOT_GRANTED") (py "Keine explizite Freigabe für " ++ c.name ++ py "."))
  require (!((decide (c ∈ networkClasses) || r.declares "network_required") && !p.allowNetwork))
    "NETWORK_DISABLED" "Netzwerkzugriff ist standardmäßig gesperrt."
  require (!((decide (c = .modelChange) || r.declares "model_change") && !p.allowModelChanges))
    "MODEL_CHANGE_DISABLED" "Modelländerungen benötigen eine separate Freigabe."
  require (!((decide (c = .productionChange) || r.declares "production_change") && !p.allowProductionChanges))
    "PRODUCTION_CHANGE_DISABLED" "Produktionsänderungen sind standardmäßig gesperrt."
  require (!(decide (c ∈ mutatingClasses) && p.requireHumanApprovalForMutations && !approved))
    "HUMAN_APPROVAL_REQUIRED" "Ändernde Aktion benötigt eine ausdrückliche menschliche Freigabe."

-- All the checks of a request, in the order of the source. The result is its class.
def GuardPolicy.checkRequest (p : GuardPolicy) (approved : Bool) (r : Request) : Except Stop ActionClass := do
  checkTexts r
  let c ← knownClass (r.get "action_class")
  require (!decide (c ∈ deniedClasses)) "PROHIBITED_ACTION_CLASS"
    "Diese Handlungsklasse ist durch die Schutzrichtlinie gesperrt."
  checkFlags r flagFields
  checkEstimates r p.numericFields
  p.checkEffects approved r c
  .ok c

end Checks

section Decide

variable (rt : Runtime)

-- A refusal of the arguments themselves.
def invalid (code : String) (reason : String) : GuardDecision :=
  ⟨false, py code, py reason, py "UNKNOWN",
    [(py "policy", .str (py "V91_GLOBAL_GUARD")), (py "decision", .str (py "DENY")),
      (py "reason_code", .str (py code))]⟩

-- `deny(code, reason)`, whose class is `str(action_class or "UNKNOWN")`.
def deny (r : Request) (code reason : PyStr) : Except PyExc GuardDecision := do
  let actionClass := r.get "action_class"
  let name ← if actionClass.truthy then actionClass.toStr rt else .ok (py "UNKNOWN")
  .ok ⟨false, code, reason, name,
    [(py "action_id", r.get "action_id"), (py "policy", .str (py "V91_GLOBAL_GUARD")),
      (py "decision", .str (py "DENY")), (py "reason_code", .str code)]⟩

def allow (p : GuardPolicy) (r : Request) (c : ActionClass) : GuardDecision :=
  ⟨true, py "ALLOW_WITHIN_POLICY", py "Strukturierte Anfrage erfüllt die konfigurierten Grenzen.", c.name,
    [(py "action_id", r.get "action_id"), (py "policy", .str (py "V91_GLOBAL_GUARD")),
      (py "decision", .str (py "ALLOW")), (py "reason_code", .str (py "ALLOW_WITHIN_POLICY")),
      (py "limits_checked", .list (p.numericFields.map fun f => .str (py f.1))),
      (py "note", .str (py "Erlaubnis ist keine Ausführung und kein Nachweis eines sicheren Gesamtsystems."))]⟩

def decideRequest (p : GuardPolicy) (approved : Bool) (r : Request) : Except PyExc GuardDecision :=
  match p.checkRequest approved r with
  | .ok c => .ok (allow p r c)
  | .error (.deny code reason) => deny rt r code reason
  | .error (.raise e) => .error e

-- `none` is a request that is not a mapping.
def authorizeAction (request : Option Request) (policy : PolicyArg) (humanApproved : PyData) :
    Except PyExc GuardDecision :=
  match request, policy, humanApproved with
  | none, _, _ => .ok (invalid "INVALID_REQUEST" "Anfrage muss eine strukturierte Zuordnung sein.")
  | some _, .other, _ => .ok (invalid "INVALID_POLICY" "Richtlinienkonfiguration ist ungültig.")
  | some r, .absent, .bool approved => decideRequest rt .default approved r
  | some r, .given p, .bool approved => decideRequest rt p approved r
  | some _, _, _ => .ok (invalid "INVALID_APPROVAL_FLAG" "Freigabe muss ein boolescher Wert sein.")

-- `authorize_action(...).allowed`.
def allows (request : Option Request) (policy : PolicyArg) (humanApproved : PyData) : Bool :=
  match authorizeAction rt request policy humanApproved with
  | .ok decision => decision.allowed
  | .error _ => false

end Decide

end V91Core.Guard
