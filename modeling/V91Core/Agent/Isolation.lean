import V91Core.Agent.Repairs

namespace V91Core.Agent

open V91Core.Python V91Core.Effect

section Inspection

variable (rt : Runtime) {Adapter : Type}

-- The part of a result that the reports decide.
structure Inspection where
  startedAt : PyStr
  finishedAt : PyStr
  aggregate : PyStr
  moduleStatuses : List (PyData × PyStr)

def CycleResult.inspection (result : CycleResult) : Inspection :=
  ⟨result.startedAt, result.finishedAt, result.aggregate, result.moduleStatuses⟩

-- A cycle without the repairs.
def inspectOnly (registry : ModuleRegistry Adapter) : Action Adapter Inspection := do
  let started ← now .started
  let reports ← inspectAll rt registry
  let aggregate ← aggregateReports rt reports
  let finished ← now .finished
  let statuses ← moduleStatuses rt reports
  let _ ← now .lastRun
  return ⟨started.isoformat, finished.isoformat, aggregate, statuses⟩

-- The repairs do not show in the rest of the result.
theorem cycleOutcome_inspection (cycle : Cycle Adapter) (h : cycle.ProposesActions) (htexts : cycle.Describable)
    (scheduler : CycleScheduler) :
    (cycleOutcome rt cycle.registry cycle.env scheduler).map CycleResult.inspection =
      (inspectOnly rt cycle.registry).result cycle.env := by
  have hproposals := (prepareRepairs_eq_ok cycle.registry cycle.env _).mpr ⟨h.attributable, rfl⟩
  obtain ⟨executed, hexecuted⟩ := (executeSafeRepairs_isOk_iff cycle.registry cycle.env).mpr (h.reportable htexts)
  rw [cycleOutcome, runCycle, Prog.result_bind, Prog.result_attempt, ok_bind]
  simp only [checkModules, inspectOnly, executeIfAny_eq, Prog.result_bind, Prog.result_liftM, hproposals, ok_bind,
    hexecuted]
  cases (@now Adapter .started).result cycle.env with
  | error e => rfl
  | ok started =>
      simp only [ok_bind]
      cases (inspectAll rt cycle.registry).result cycle.env with
      | error e => rfl
      | ok reports =>
          simp only [ok_bind]
          cases aggregateReports rt reports with
          | error e => rfl
          | ok aggregate =>
              simp only [ok_bind]
              cases (@now Adapter .finished).result cycle.env with
              | error e => rfl
              | ok finished =>
                  simp only [ok_bind]
                  cases moduleStatuses rt reports with
                  | error e => rfl
                  | ok statuses =>
                      simp only [ok_bind, Prog.result_pure]
                      rw [Prog.result_bind, Prog.result_attempt, ok_bind]
                      cases (@now Adapter .lastRun).result cycle.env with
                      | error e => rfl
                      | ok moment => rfl

end Inspection

-- A call of this module's adapter.
def CycleOp.asks {Adapter : Type} (moduleId : PyStr) : CycleOp Adapter → Bool
  | .now _ => false
  | .inspect name _ | .proposeRepair name _ | .execute name _ _ => name = moduleId

-- Two answers of `inspect` that look the same until the inspection is over. What the objects
-- show after the repairs may differ.
inductive SameInspection : Except Raised Inspected → Except Raised Inspected → Prop
  | raised (e : Raised) : SameInspection (.error e) (.error e)
  | returned (report report' : Inspected) (hreturned : report'.moduleId .returned = report.moduleId .returned)
      (hnamed : report'.moduleId .named = report.moduleId .named)
      (hstatus : report'.status .returned = report.status .returned) : SameInspection (.ok report) (.ok report')

-- The two cycles differ at most in how the adapter of this module answers `propose_repair` and
-- `execute`, and in what that does to its own report.
structure SameBut {Adapter : Type} (moduleId : PyStr) (cycle cycle' : Cycle Adapter) : Prop where
  registry : cycle'.registry = cycle.registry
  inspect : ∀ adapter, SameInspection (cycle.env (.inspect moduleId adapter)) (cycle'.env (.inspect moduleId adapter))
  env : ∀ op : CycleOp Adapter, op.asks moduleId = false → cycle'.env op = cycle.env op

-- What can be seen of a cycle.
structure Observed (Adapter : Type) where
  moduleIds : List PyStr
  reports : Except Raised (List Report)
  calls : List (CycleOp Adapter)
  outcome : Except Raised CycleResult

-- An `execute` of another module's adapter.
def CycleOp.executesOther {Adapter : Type} (moduleId : PyStr) : CycleOp Adapter → Bool
  | .execute name _ _ => name ≠ moduleId
  | _ => false

-- The reports of the other modules.
def Observed.otherReports {Adapter : Type} (moduleId : PyStr) (observed : Observed Adapter) :
    Except Raised (List (PyStr × Report)) :=
  observed.reports.map fun reports => (observed.moduleIds.zip reports).filter (·.1 ≠ moduleId)

-- The same reports and executions of the other modules, and the same result as far as the
-- reports decide it, unless the module changes its own report.
structure Undisturbed {Adapter : Type} (moduleId : PyStr) (observed observed' : Observed Adapter) : Prop where
  reports : observed'.otherReports moduleId = observed.otherReports moduleId
  executions : observed'.calls.filter (CycleOp.executesOther moduleId) =
    observed.calls.filter (CycleOp.executesOther moduleId)
  outcome : observed'.reports = observed.reports →
    observed'.outcome.map CycleResult.inspection = observed.outcome.map CycleResult.inspection

section Frame

variable (rt : Runtime) {Adapter : Type}

def Cycle.observed (scheduler : CycleScheduler) (cycle : Cycle Adapter) : Observed Adapter where
  moduleIds := cycle.registry.listModuleIds
  reports := (inspectAll rt cycle.registry).result cycle.env
  calls := (runCycle rt cycle.registry scheduler).calls cycle.env
  outcome := cycleOutcome rt cycle.registry cycle.env scheduler

-- The scheduler after a cycle.
def Cycle.next (scheduler : CycleScheduler) (cycle : Cycle Adapter) : CycleScheduler :=
  match (runCycle rt cycle.registry scheduler).result cycle.env with
  | .ok (_, next) => next
  | .error _ => scheduler

-- A scheduler that goes from cycle to cycle.
def cycles : Mealy CycleScheduler (Cycle Adapter) (Observed Adapter) where
  init := ⟨[], none⟩
  step := Cycle.next rt
  output := Cycle.observed rt

theorem executesOther_isExecution (moduleId : PyStr) (op : CycleOp Adapter) (h : op.executesOther moduleId = true) :
    op.isExecution := by
  cases op with
  | execute name adapter proposal => exact trivial
  | _ => cases h

section Undisturbed

variable (moduleId : PyStr) (registry : ModuleRegistry Adapter) (env env' : Behaviour Adapter)
  (hinspect : ∀ adapter, SameInspection (env (.inspect moduleId adapter)) (env' (.inspect moduleId adapter)))
  (hsame : ∀ op : CycleOp Adapter, op.asks moduleId = false → env' op = env op)

section Inspect

include hinspect

-- The module's own inspection returns or raises as before.
theorem readReport_congr (version : PyStr) (adapter : Adapter) :
    ((readReport rt moduleId version adapter).result env').map (fun _ => ()) =
      ((readReport rt moduleId version adapter).result env).map (fun _ => ()) := by
  rw [readReport_result, readReport_result]
  have hinspected := hinspect adapter
  generalize env (.inspect moduleId adapter) = answer at hinspected
  generalize env' (.inspect moduleId adapter) = answer' at hinspected
  cases hinspected with
  | raised e => rfl
  | returned report report' hreturned hnamed _ =>
      rw [ok_bind, ok_bind, hreturned, hnamed]
      cases report.moduleId .returned with
      | error e => rfl
      | ok reported =>
          rw [ok_bind, ok_bind]
          cases reported.isStr moduleId with
          | true => rfl
          | false => rfl

theorem inspectModule_own_congr :
    ((inspectModule rt registry moduleId).result env').map (fun _ => ()) =
      ((inspectModule rt registry moduleId).result env).map (fun _ => ()) := by
  rw [inspectModule, Prog.result_bind, Prog.result_bind, Prog.result_liftM, Prog.result_liftM]
  cases plain (registry.getSpec moduleId) with
  | error e => rfl
  | ok spec =>
      rw [ok_bind, ok_bind]
      cases registry.getAdapter moduleId with
      | none => rfl
      | some adapter =>
          have hread := readReport_congr rt moduleId env env' hinspect spec.version adapter
          dsimp only
          rcases cases_of_map_eq hread with ⟨e, he, he'⟩ | ⟨report, report', hreport, hreport', -⟩
          · have hhandler : (failedReport moduleId spec.version e : Action Adapter Report).result env' =
                (failedReport moduleId spec.version e).result env := by
              refine (Prog.eval_congr env env' _ fun op hop => ?_).2
              rw [failedReport_calls] at hop
              cases hop
            rw [Prog.result_catching_error env _ _ e he, Prog.result_catching_error env' _ _ e he', hhandler]
          · rw [Prog.result_catching_ok env _ _ report hreport, Prog.result_catching_ok env' _ _ report' hreport']
            rfl

end Inspect

section Same

include hsame

theorem now_congr (reading : Reading) : (@now Adapter reading).result env' = (@now Adapter reading).result env := by
  refine (Prog.eval_congr env env' _ fun op hop => hsame op ?_).2
  obtain ⟨reading, rfl⟩ := now_clockOnly env reading op hop
  rfl

theorem clockAware_congr (reading : Reading) : ClockAware env' reading ↔ ClockAware env reading := by
  rw [ClockAware, ClockAware, hsame (.now reading) rfl]

theorem inspectModule_congr (other : PyStr) (hother : other ≠ moduleId) :
    (inspectModule rt registry other).result env' = (inspectModule rt registry other).result env := by
  refine (Prog.eval_congr env env' _ fun op hop => hsame op ?_).2
  obtain ⟨adapter, rfl⟩ := inspectModule_calls rt registry env other op hop
  exact decide_eq_false hother

-- What another module executes does not depend on this one.
theorem execution_congr (other : PyStr) (hother : other ≠ moduleId) :
    execution registry env' other = execution registry env other := by
  have hproposal : cycleProposal registry env' other = cycleProposal registry env other := by
    unfold cycleProposal
    cases registry.getAdapter other with
    | none => rfl
    | some adapter =>
        have hanswer : env' (.proposeRepair other adapter) = env (.proposeRepair other adapter) :=
          hsame _ (decide_eq_false hother)
        simp only [Option.bind_eq_bind, Option.bind_some, hanswer]
  rw [execution, execution, hproposal]

end Same

end Undisturbed

variable {cycle cycle' : Cycle Adapter} {moduleId : PyStr}

theorem SameBut.otherReports (hsame : SameBut moduleId cycle cycle') (scheduler scheduler' : CycleScheduler) :
    (cycle'.observed rt scheduler').otherReports moduleId = (cycle.observed rt scheduler).otherReports moduleId := by
  obtain ⟨registry, env⟩ := cycle
  obtain ⟨registry', env'⟩ := cycle'
  obtain ⟨hregistry, hinspect, henv⟩ := hsame
  obtain rfl : registry' = registry := hregistry
  refine Prog.result_each_others env _ env' moduleId _ ?_ ?_
  · exact fun other _ hother => inspectModule_congr rt moduleId registry' env env' henv other hother
  · exact inspectModule_own_congr rt moduleId registry' env env' hinspect

theorem SameBut.reaches_iff (hsame : SameBut moduleId cycle cycle') :
    Reaches rt cycle'.registry cycle'.env ↔ Reaches rt cycle.registry cycle.env := by
  have hreports := hsame.otherReports rt ⟨[], none⟩ ⟨[], none⟩
  have haware := clockAware_congr moduleId cycle.env cycle'.env hsame.env .started
  unfold Observed.otherReports Cycle.observed at hreports
  rw [hsame.registry] at hreports ⊢
  refine and_congr haware ?_
  rcases cases_of_map_eq hreports with ⟨e, he, he'⟩ | ⟨reports, reports', hok, hok', -⟩
  · dsimp only at he he'
    rw [he, he']
  · exact iff_of_true ⟨reports', hok'⟩ ⟨reports, hok⟩

theorem SameBut.otherExecutions (hsame : SameBut moduleId cycle cycle') (h : cycle.ProposesActions)
    (h' : cycle'.ProposesActions) :
    (executions cycle'.registry cycle'.env).filter (CycleOp.executesOther moduleId) =
      (executions cycle.registry cycle.env).filter (CycleOp.executesOther moduleId) := by
  rw [executions, executions, List.filter_filterMap, List.filter_filterMap, hsame.registry]
  refine List.filterMap_congr fun other _ => ?_
  by_cases hother : other = moduleId
  · -- Its own executions are filtered out on both sides.
    have hnone : ∀ cycle : Cycle Adapter, cycle.ProposesActions →
        (execution cycle.registry cycle.env other).filter (CycleOp.executesOther moduleId) = none := by
      intro cycle h
      refine Option.filter_eq_none_iff.mpr fun op hop => ?_
      obtain ⟨adapter, action, rfl, -⟩ := (h.execution_eq_some other op).mp hop
      simp [CycleOp.executesOther, hother]
    rw [← hsame.registry, hnone cycle' h', hsame.registry, hnone cycle h]
  · rw [execution_congr moduleId cycle.registry cycle.env cycle'.env hsame.env other hother]

theorem SameBut.filter_calls (hsame : SameBut moduleId cycle cycle') (h : cycle.ProposesActions)
    (h' : cycle'.ProposesActions) (htexts : cycle.Describable) (htexts' : cycle'.Describable)
    (calls calls' : List (CycleOp Adapter)) (hcalls : CycleCalls rt cycle calls)
    (hcalls' : CycleCalls rt cycle' calls') :
    calls'.filter (CycleOp.executesOther moduleId) = calls.filter (CycleOp.executesOther moduleId) := by
  have hother := @executesOther_isExecution Adapter moduleId
  have hreaches := hsame.reaches_iff rt
  cases hcalls with
  | stopped hnot hquiet =>
      cases hcalls' with
      | stopped _ hquiet' => rw [filter_quiet _ hother _ hquiet, filter_quiet _ hother _ hquiet']
      | repaired _ _ hreaches' => exact absurd (hreaches.mp hreaches') hnot
  | repaired made tail hreaches' _ hall htail hsplit =>
      cases hcalls' with
      | stopped hnot => exact absurd (hreaches.mpr hreaches') hnot
      | repaired made' tail' _ _ hall' htail' hsplit' =>
          rw [hsplit, hsplit', filter_repaired rt cycle _ hother made tail htail,
            filter_repaired rt cycle' _ hother made' tail' htail', hall htexts, hall' htexts']
          exact hsame.otherExecutions h h'

theorem SameBut.undisturbed (hsame : SameBut moduleId cycle cycle') (h : cycle.ProposesActions)
    (h' : cycle'.ProposesActions) (htexts : cycle.Describable) (htexts' : cycle'.Describable)
    (scheduler scheduler' : CycleScheduler) :
    Undisturbed moduleId (cycle.observed rt scheduler) (cycle'.observed rt scheduler') := by
  refine ⟨hsame.otherReports rt scheduler scheduler', ?_, fun hreports => ?_⟩
  · exact hsame.filter_calls rt h h' htexts htexts' _ _ (runCycle_calls rt scheduler h)
      (runCycle_calls rt scheduler' h')
  · have hnow := now_congr moduleId cycle.env cycle'.env hsame.env
    calc (cycle'.observed rt scheduler').outcome.map CycleResult.inspection
        = (inspectOnly rt cycle'.registry).result cycle'.env := cycleOutcome_inspection rt cycle' h' htexts' scheduler'
      _ = (inspectOnly rt cycle.registry).result cycle.env := by
          change (inspectAll rt cycle'.registry).result cycle'.env =
            (inspectAll rt cycle.registry).result cycle.env at hreports
          simp only [inspectOnly, Prog.result_bind, Prog.result_liftM, hnow, hreports, Prog.result_pure]
      _ = (cycle.observed rt scheduler).outcome.map CycleResult.inspection :=
          (cycleOutcome_inspection rt cycle h htexts scheduler).symm

-- In every run of cycles a repair is executed only as its own module proposed it and as the
-- policy allows, at most once for a module. The repairs of a module do not touch the reports or
-- the executions of the others, as long as every exception of an execution has a text.
theorem repairs_stay_in_module (runs : List (Cycle Adapter)) (h : ∀ cycle ∈ runs, cycle.ProposesActions)
    (scheduler : CycleScheduler) :
    List.Forall₂ (fun cycle observed => Confined cycle observed.calls) runs ((cycles rt).outputs scheduler runs) ∧
      ∀ moduleId runs' scheduler', (∀ cycle ∈ runs', cycle.ProposesActions) →
        (∀ cycle ∈ runs ++ runs', cycle.Describable) → List.Forall₂ (SameBut moduleId) runs runs' →
          List.Forall₂ (Undisturbed moduleId) ((cycles rt).outputs scheduler runs)
            ((cycles rt).outputs scheduler' runs') := by
  constructor
  · induction runs generalizing scheduler with
    | nil => exact .nil
    | cons cycle runs ih =>
        obtain ⟨hcycle, hruns⟩ := List.forall_mem_cons.mp h
        have hcalls := runCycle_calls rt scheduler hcycle
        exact .cons (confined_of_calls rt cycle hcycle _ hcalls) (ih hruns _)
  · intro moduleId runs' scheduler' h' hall hsame
    obtain ⟨htexts, htexts'⟩ := List.forall_mem_append.mp hall
    clear hall
    induction hsame generalizing scheduler scheduler' with
    | nil => exact .nil
    | cons hcycle _ ih =>
        obtain ⟨hfirst, hrest⟩ := List.forall_mem_cons.mp h
        obtain ⟨hfirst', hrest'⟩ := List.forall_mem_cons.mp h'
        obtain ⟨htext, htexts⟩ := List.forall_mem_cons.mp htexts
        obtain ⟨htext', htexts'⟩ := List.forall_mem_cons.mp htexts'
        exact .cons (hcycle.undisturbed rt hfirst hfirst' htext htext' scheduler scheduler')
          (ih hrest _ _ hrest' htexts htexts')

end Frame

section Sample

def sampleProposal (moduleId : PyStr) : Proposal :=
  .action ⟨.str moduleId, .str (py "restart_worker"), .str (py "restart"), .bool true, .bool false⟩

-- Every module reports HEALTHY and proposes a safe repair.
def repairEnv (propose : PyStr → Except Raised Proposal) (execute : PyStr → Except Raised PyData) : Behaviour Unit
  | .now _ => .ok ⟨true, py "2026-11-06T09:00:00+00:00"⟩
  | .inspect moduleId _ => .ok ⟨fun _ => .ok (.str moduleId), fun _ => .ok (.member .healthy)⟩
  | .proposeRepair moduleId _ => propose moduleId
  | .execute moduleId _ _ => execute moduleId

def repairCycle (propose : PyStr → Except Raised Proposal) (execute : PyStr → Except Raised PyData) : Cycle Unit :=
  ⟨sampleRegistry, repairEnv propose execute⟩

section RepairCycle

variable (propose propose' : PyStr → Except Raised Proposal) (execute execute' : PyStr → Except Raised PyData)

theorem repairCycle_actions (h : ∀ moduleId proposal, propose moduleId = .ok proposal →
    ∃ action, proposal = .action action) : (repairCycle propose execute).ProposesActions :=
  fun moduleId _ proposal hproposal => .inr (h moduleId proposal hproposal)

theorem repairCycle_describable (h : ∀ moduleId e, execute moduleId = .error e → e.Printable) :
    (repairCycle propose execute).Describable := by
  intro moduleId _ op hop e he
  simp only [execution, Option.bind_eq_bind, Option.bind_eq_some_iff, Option.some.injEq] at hop
  obtain ⟨_, _, target, _, rfl⟩ := hop
  exact h target.1 e he

theorem repairCycle_sameBut (moduleId : PyStr) (hpropose : ∀ other, other ≠ moduleId → propose' other = propose other)
    (hexecute : ∀ other, other ≠ moduleId → execute' other = execute other) :
    SameBut moduleId (repairCycle propose execute) (repairCycle propose' execute') where
  registry := rfl
  inspect _ := .returned _ _ rfl rfl rfl
  env op hop := by
    cases op with
    | proposeRepair other _ => exact hpropose other (of_decide_eq_false hop)
    | execute other _ _ => exact hexecute other (of_decide_eq_false hop)
    | _ => rfl

end RepairCycle

def proposeAll (moduleId : PyStr) : Except Raised Proposal := .ok (sampleProposal moduleId)

def repairAll (_ : PyStr) : Except Raised PyData := .ok (.bool true)

-- One module fails with an exception.
def failingAt (failing : PyStr) (e : Raised) (answer : PyStr → Except Raised α) (moduleId : PyStr) : Except Raised α :=
  if moduleId = failing then .error e else answer moduleId

theorem failingAt_other (failing : PyStr) (e : Raised) (answer : PyStr → Except Raised α) (other : PyStr)
    (h : other ≠ failing) : failingAt failing e answer other = answer other := if_neg h

theorem proposeAll_actions (moduleId : PyStr) (proposal : Proposal) (h : proposeAll moduleId = .ok proposal) :
    ∃ action, proposal = .action action := ⟨_, (Except.ok.inj h).symm⟩

theorem failingAt_actions (failing : PyStr) (e : Raised) (moduleId : PyStr) (proposal : Proposal)
    (h : failingAt failing e proposeAll moduleId = .ok proposal) : ∃ action, proposal = .action action := by
  unfold failingAt at h
  split at h
  · cases h
  · exact proposeAll_actions moduleId proposal h

theorem failingAt_printable (failing : PyStr) (e : Raised) (he : e.Printable) (moduleId : PyStr) (e' : Raised)
    (h : failingAt failing e repairAll moduleId = .error e') : e'.Printable := by
  unfold failingAt at h
  split at h
  · exact Except.error.inj h ▸ he
  · cases h

def sampleFailure : Raised := .of (.valueError (py "worker is gone"))

-- A cycle in which nothing fails.
def soundCycle : Cycle Unit := repairCycle proposeAll repairAll

def soundCycles : List (Cycle Unit) := [soundCycle, soundCycle]

-- The second module fails, first with its proposal and then with its repair.
def failingCycles : List (Cycle Unit) :=
  [repairCycle (failingAt (py "m2") sampleFailure proposeAll) repairAll,
    repairCycle proposeAll (failingAt (py "m2") sampleFailure repairAll)]

theorem repairs_sample :
    List.Forall₂ (fun cycle observed => Confined cycle observed.calls) failingCycles
        ((cycles sampleRuntime).outputs ⟨[], none⟩ failingCycles) ∧
      List.Forall₂ (Undisturbed (py "m2")) ((cycles sampleRuntime).outputs ⟨[], none⟩ soundCycles)
        ((cycles sampleRuntime).outputs ⟨[], none⟩ failingCycles) := by
  have hprintable := failingAt_printable (py "m2") sampleFailure (Raised.printable_of _)
  have hall : soundCycle.ProposesActions := repairCycle_actions proposeAll repairAll proposeAll_actions
  have htexts : ∀ propose, (repairCycle propose repairAll).Describable :=
    fun propose => repairCycle_describable propose repairAll fun _ _ h => by cases h
  have hruns : ∀ cycle ∈ soundCycles, cycle.ProposesActions := by
    simpa [soundCycles] using hall
  have hfailing : ∀ cycle ∈ failingCycles, cycle.ProposesActions := by
    refine List.forall_mem_cons.mpr ⟨?_, List.forall_mem_singleton.mpr ?_⟩
    · exact repairCycle_actions _ _ (failingAt_actions _ _)
    · exact repairCycle_actions _ _ proposeAll_actions
  refine ⟨(repairs_stay_in_module sampleRuntime failingCycles hfailing ⟨[], none⟩).1,
    (repairs_stay_in_module sampleRuntime soundCycles hruns ⟨[], none⟩).2 (py "m2") failingCycles ⟨[], none⟩ hfailing
      ?_ ?_⟩
  · refine List.forall_mem_append.mpr ⟨?_, List.forall_mem_cons.mpr ⟨htexts _, List.forall_mem_singleton.mpr ?_⟩⟩
    · exact List.forall_mem_cons.mpr ⟨htexts _, List.forall_mem_singleton.mpr (htexts _)⟩
    · exact repairCycle_describable _ _ hprintable
  · refine .cons ?_ (.cons ?_ .nil)
    · exact repairCycle_sameBut _ _ _ _ (py "m2") (failingAt_other _ _ _) fun _ _ => rfl
    · exact repairCycle_sameBut _ _ _ _ (py "m2") (fun _ _ => rfl) (failingAt_other _ _ _)

-- `KeyError(10**5000)` has no text.
def unprintableFailure : Raised := ⟨.keyError, .error (.valueError (py "Exceeds the limit (4300 digits)"))⟩

def unprintableCycle : Cycle Unit := repairCycle proposeAll (failingAt (py "m1") unprintableFailure repairAll)

-- The repair of the second module is lost.
theorem unprintable_exception_ends_repairs :
    soundCycle.ProposesActions ∧ unprintableCycle.ProposesActions ∧
      SameBut (py "m1") soundCycle unprintableCycle ∧
      ¬ Undisturbed (py "m1") (soundCycle.observed sampleRuntime ⟨[], none⟩)
        (unprintableCycle.observed sampleRuntime ⟨[], none⟩) := by
  have hlost : ((unprintableCycle.observed sampleRuntime ⟨[], none⟩).calls.filter
      (CycleOp.executesOther (py "m1"))).length = 0 := by decide +kernel
  have hmade : ((soundCycle.observed sampleRuntime ⟨[], none⟩).calls.filter
      (CycleOp.executesOther (py "m1"))).length = 1 := by decide +kernel
  refine ⟨repairCycle_actions _ _ proposeAll_actions, repairCycle_actions _ _ proposeAll_actions, ?_, ?_⟩
  · exact repairCycle_sameBut _ _ _ _ (py "m1") (fun _ _ => rfl) (failingAt_other _ _ _)
  · intro h
    rw [h.executions, hmade] at hlost
    cases hlost

end Sample

end V91Core.Agent
