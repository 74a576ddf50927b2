import V91Core.Agent.Registry
import V91Core.Agent.Status
import V91Core.Effect.Eval

namespace V91Core.Agent

open V91Core.Python V91Core.Effect

structure ModuleReport where
  moduleId : PyStr
  version : PyStr
  status : Status
  details : PyStr

-- What reading the `status` of a report gives.
inductive StatusValue where
  | member (status : Status)
  | value (value : PyData)

-- The moments at which a cycle looks at a report: when `inspect` has returned it, where its id
-- is put into a text, for the aggregate, and for the entry in the result. The adapters run
-- between the first two and the last two.
inductive Look where
  | returned
  | named
  | aggregated
  | listed

-- The object that `inspect` returns, with what its two attributes show at each of the moments.
-- An attribute that is not there raises.
structure Inspected where
  moduleId : Look → Except Raised PyData
  status : Look → Except Raised StatusValue

-- A report of a cycle: one that the agent built, or the object of an adapter.
inductive Report where
  | built (report : ModuleReport)
  | returned (report : Inspected)

def Report.moduleId : Report → Look → Except Raised PyData
  | .built report, _ => .ok (.str report.moduleId)
  | .returned report, look => report.moduleId look

def Report.status : Report → Look → Except Raised StatusValue
  | .built report, _ => .ok (.member report.status)
  | .returned report, look => report.status look

structure ActionProposal where
  moduleId : PyData
  action : PyData
  reason : PyData
  reversible : PyData
  requiresApproval : PyData

-- The moments at which the agent reads the `module_id` of a proposal.
inductive Use where
  | compared
  | denied
  | asked
  | unanswered
  | executed
  | failed

-- The object that `propose_repair` returns.
inductive Proposal where
  | none
  | action (proposal : ActionProposal)
  | other (moduleId : Use → Except Raised PyData) (reversible requiresApproval : Except Raised PyData)

namespace Proposal

def moduleId : Proposal → Use → Except Raised PyData
  | .none, _ => .error (.of .attributeError)
  | .action proposal, _ => .ok proposal.moduleId
  | .other moduleId _ _, use => moduleId use

def reversible : Proposal → Except Raised PyData
  | .none => .error (.of .attributeError)
  | .action proposal => .ok proposal.reversible
  | .other _ reversible _ => reversible

def requiresApproval : Proposal → Except Raised PyData
  | .none => .error (.of .attributeError)
  | .action proposal => .ok proposal.requiresApproval
  | .other _ _ requiresApproval => requiresApproval

end Proposal

-- A time that the clock gives.
structure Moment where
  aware : Bool
  isoformat : PyStr
deriving DecidableEq

-- The three times at which a cycle reads the clock.
inductive Reading where
  | started
  | finished
  | lastRun
deriving DecidableEq

-- The calls of a cycle: to the clock, and to the adapter of a module.
inductive CycleOp (Adapter : Type) where
  | now (reading : Reading)
  | inspect (moduleId : PyStr) (adapter : Adapter)
  | proposeRepair (moduleId : PyStr) (adapter : Adapter)
  | execute (moduleId : PyStr) (adapter : Adapter) (proposal : Proposal)

abbrev CycleOp.Res {Adapter : Type} : CycleOp Adapter → Type
  | .now _ => Moment
  | .inspect _ _ => Inspected
  | .proposeRepair _ _ => Proposal
  | .execute _ _ _ => PyData

abbrev Action (Adapter : Type) := Prog (CycleOp Adapter) CycleOp.Res Raised

-- How the clock and the adapters answer during a cycle.
abbrev Behaviour (Adapter : Type) := (op : CycleOp Adapter) → Except Raised op.Res

theorem isStr_iff (value : PyData) (text : PyStr) : value.isStr text = true ↔ value = .str text := by
  cases value <;> simp [PyData.isStr]

-- `PolicyEngine.allowed`.
def allowed (proposal : Proposal) : Except Raised Bool := do
  let reversible ← proposal.reversible
  if !reversible.truthy then return false
  let requiresApproval ← proposal.requiresApproval
  return !requiresApproval.truthy

section Agent

variable (rt : Runtime) {Adapter : Type} (registry : ModuleRegistry Adapter)

abbrev perform (op : CycleOp Adapter) : Action Adapter op.Res := Prog.perform op

-- The report that the agent builds where a module has none of its own.
def unknownReport (moduleId version details : PyStr) : Report := .built ⟨moduleId, version, .unknown, details⟩

-- What `inspect_all` tries for a module with an adapter.
def readReport (moduleId version : PyStr) (adapter : Adapter) : Action Adapter Report := do
  let report ← perform (.inspect moduleId adapter)
  let reported ← report.moduleId .returned
  if reported.isStr moduleId then
    return .returned report
  let shown ← report.moduleId .named
  let text ← plain (shown.toStr rt)
  return unknownReport moduleId version (py "Identitaetsabweichung: gemeldet '" ++ text ++ py "'")

-- The handler of `inspect_all`. Nothing catches what the text of the exception raises.
def failedReport (moduleId version : PyStr) (e : Raised) : Action Adapter Report := do
  let text ← plain e.text
  return unknownReport moduleId version (py "Inspektion fehlgeschlagen: " ++ text)

def inspectModule (moduleId : PyStr) : Action Adapter Report := do
  let adapter := registry.getAdapter moduleId
  let spec ← plain (registry.getSpec moduleId)
  match adapter with
  | none => return unknownReport moduleId spec.version (py "Kein Adapter registriert")
  | some adapter =>
      (readReport rt moduleId spec.version adapter).catching (failedReport moduleId spec.version)

def inspectAll : Action Adapter (List Report) := Prog.each (inspectModule rt registry) registry.listModuleIds

-- What `prepare_repairs` keeps of an answer of `propose_repair`.
def keepOwn (moduleId : PyStr) : Except Raised Proposal → Except Raised (Option Proposal)
  | .error _ => .ok none
  | .ok .none => .ok none
  | .ok proposal => do
      let proposed ← proposal.moduleId .compared
      return if proposed.isStr moduleId then some proposal else none

def proposeModule (moduleId : PyStr) : Action Adapter (Option Proposal) :=
  match registry.getAdapter moduleId with
  | none => return none
  | some adapter => do
      let answer ← (perform (.proposeRepair moduleId adapter)).attempt
      keepOwn moduleId answer

def prepareRepairs : Action Adapter (List Proposal) := do
  let proposals ← Prog.each (proposeModule registry) registry.listModuleIds
  return proposals.reduceOption

-- `self.registry.get_adapter(module_id)` for any object.
def adapterOf (moduleId : PyData) : Except PyExc (Option (PyStr × Adapter)) := do
  let key ← moduleId.lookupKey
  return key.bind fun name => (registry.getAdapter name).map (name, ·)

-- The handler of `execute_safe_repairs`. Nothing catches what it raises.
def failedEntry (proposal : Proposal) (e : Raised) : Action Adapter (PyData × PyStr) := do
  let moduleId ← proposal.moduleId .failed
  let text ← plain e.text
  return (moduleId, py "FAILED: " ++ text)

-- What `execute_safe_repairs` tries for a proposal that the adapter may execute.
def executedEntry (name : PyStr) (adapter : Adapter) (proposal : Proposal) : Action Adapter (PyData × PyStr) := do
  let success ← perform (.execute name adapter proposal)
  let moduleId ← proposal.moduleId .executed
  return (moduleId, if success.truthy then py "SUCCESS" else py "FAILED")

def tryExecute (name : PyStr) (adapter : Adapter) (proposal : Proposal) : Action Adapter (PyData × PyStr) :=
  (executedEntry name adapter proposal).catching (failedEntry proposal)

def executeRepair (proposal : Proposal) : Action Adapter (PyData × PyStr) := do
  let isAllowed ← allowed proposal
  if !isAllowed then do
    let moduleId ← proposal.moduleId .denied
    return (moduleId, py "NOT_AUTHORIZED")
  else do
    let asked ← proposal.moduleId .asked
    match ← plain (adapterOf registry asked) with
    | none => do
        let moduleId ← proposal.moduleId .unanswered
        return (moduleId, py "NO_ADAPTER")
    | some (name, adapter) => tryExecute name adapter proposal

def executeSafeRepairs (proposals : List Proposal) : Action Adapter (List (PyData × PyStr)) :=
  Prog.each (executeRepair registry) proposals

end Agent

structure CycleResult where
  startedAt : PyStr
  finishedAt : PyStr
  aggregate : PyStr
  moduleStatuses : List (PyData × PyStr)
  proposals : Nat
  executed : List (PyData × PyStr)

structure CycleScheduler where
  history : List CycleResult
  lastRun : Option Moment

def maxHistory : Nat := 100

section Scheduler

variable (rt : Runtime) {Adapter : Type} (registry : ModuleRegistry Adapter)

def now (reading : Reading) : Action Adapter Moment := do
  let moment ← perform (.now reading)
  if !moment.aware then
    Prog.raise (.of (.valueError (py "Clock muss zeitzonenbewusste Zeit liefern")))
  else return moment

-- `r.status.value if isinstance(r.status, Status) else r.status`.
def Report.statusItem (report : Report) : Except Raised PyData := do
  match ← report.status .aggregated with
  | .member status => return .str status.value
  | .value value => return value

-- `r.status.value if isinstance(r.status, Status) else str(r.status)`.
def Report.statusText (report : Report) : Except Raised PyStr := do
  match ← report.status .listed with
  | .member status => return status.value
  | .value value => plain (value.toStr rt)

-- The key and the value of an entry. The key has to be hashable.
def Report.entry (report : Report) : Except Raised (PyData × PyStr) := do
  let key ← report.moduleId .listed
  let text ← report.statusText rt
  let _ ← plain key.lookupKey
  return (key, text)

-- `entries[key] = value` of a dict that keeps its order.
def setEntry (entries : List (PyData × PyStr)) (key : PyData) (value : PyStr) : List (PyData × PyStr) :=
  match entries with
  | [] => [(key, value)]
  | (k, v) :: rest => if k.sameKey key then (k, value) :: rest else (k, v) :: setEntry rest key value

def moduleStatuses (reports : List Report) : Except Raised (List (PyData × PyStr)) := do
  let items ← Json.sequence (reports.map (Report.entry rt))
  return items.foldl (fun entries item => setEntry entries item.1 item.2) []

def aggregateReports (reports : List Report) : Except Raised PyStr :=
  if reports.isEmpty then .ok Status.unknown.value
  else Status.aggregateStatus rt (reports.map Report.statusItem)

def executeIfAny (proposals : List Proposal) : Action Adapter (List (PyData × PyStr)) :=
  if proposals.isEmpty then return [] else executeSafeRepairs registry proposals

-- `run_cycle` up to its result.
def checkModules : Action Adapter CycleResult := do
  let started ← now .started
  let reports ← inspectAll rt registry
  let proposals ← prepareRepairs registry
  let executed ← executeIfAny registry proposals
  let aggregate ← aggregateReports rt reports
  let finished ← now .finished
  let statuses ← moduleStatuses rt reports
  return ⟨started.isoformat, finished.isoformat, aggregate, statuses, proposals.length, executed⟩

def CycleScheduler.remember (scheduler : CycleScheduler) (result : CycleResult) : CycleScheduler :=
  let history := scheduler.history ++ [result]
  { scheduler with history := history.drop (history.length - maxHistory) }

-- `run_cycle`: its outcome, and the scheduler after it. The result is in the history
-- also when the last reading of the clock raises.
def runCycle (scheduler : CycleScheduler) : Action Adapter (Except Raised CycleResult × CycleScheduler) := do
  match ← (checkModules rt registry).attempt with
  | .error e => return (.error e, scheduler)
  | .ok result =>
      match ← (now .lastRun).attempt with
      | .error e => return (.error e, scheduler.remember result)
      | .ok moment => return (.ok result, { scheduler.remember result with lastRun := some moment })

end Scheduler

end V91Core.Agent
