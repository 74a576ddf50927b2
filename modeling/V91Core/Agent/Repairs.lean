import V91Core.Agent.Healthy
import V91Core.Effect.Mealy

namespace V91Core.Agent

open V91Core.Python V91Core.Effect

-- A cycle: the registry at that time, and how the clock and the adapters answer.
structure Cycle (Adapter : Type) where
  registry : ModuleRegistry Adapter
  env : Behaviour Adapter

-- The execution that a cycle makes for a module, if it makes one.
def execution {Adapter : Type} (registry : ModuleRegistry Adapter) (env : Behaviour Adapter) (moduleId : PyStr) :
    Option (CycleOp Adapter) := do
  let proposal ← cycleProposal registry env moduleId
  let target ← authorised registry proposal
  some (.execute target.1 target.2 proposal)

namespace Cycle

variable {Adapter : Type} (cycle : Cycle Adapter)

-- `propose_repair` returns an `ActionProposal` or `None`, or raises.
def ProposesActions : Prop :=
  ∀ moduleId adapter proposal, cycle.env (.proposeRepair moduleId adapter) = .ok proposal →
    proposal = .none ∨ ∃ action, proposal = .action action

-- Every exception of an execution that the cycle makes has a text.
def Describable : Prop :=
  ∀ moduleId ∈ cycle.registry.listModuleIds, ∀ op, execution cycle.registry cycle.env moduleId = some op →
    ∀ e, cycle.env op = .error e → e.Printable

theorem allowed_action (action : ActionProposal) :
    allowed (.action action) = .ok (action.reversible.truthy && !action.requiresApproval.truthy) := by
  rw [allowed]
  change (if (!action.reversible.truthy) = true then _ else _) = _
  cases action.reversible.truthy with
  | false => rfl
  | true => rfl

variable {cycle}

theorem ProposesActions.attributable (h : cycle.ProposesActions) : AllAttributable cycle.registry cycle.env := by
  intro moduleId adapter proposal _ hanswer
  rcases h moduleId adapter proposal hanswer with rfl | ⟨action, rfl⟩
  · exact .inl rfl
  · exact .inr ⟨action.moduleId, rfl⟩

theorem ProposesActions.own (h : cycle.ProposesActions) (moduleId : PyStr) (proposal : Proposal)
    (hproposal : cycleProposal cycle.registry cycle.env moduleId = some proposal) :
    ∃ adapter action, proposal = .action action ∧ cycle.registry.getAdapter moduleId = some adapter ∧
      cycle.env (.proposeRepair moduleId adapter) = .ok (.action action) ∧ action.moduleId = .str moduleId := by
  obtain ⟨adapter, hadapter, hanswer, hown⟩ := (cycleProposal_eq_some _ _ moduleId proposal).mp hproposal
  rcases h moduleId adapter proposal hanswer with rfl | ⟨action, rfl⟩
  · cases hown
  · exact ⟨adapter, action, rfl, hadapter, hanswer, Except.ok.inj hown⟩

-- A module's execution is one of what its own adapter proposed.
theorem ProposesActions.execution_eq_some (h : cycle.ProposesActions) (moduleId : PyStr) (op : CycleOp Adapter) :
    execution cycle.registry cycle.env moduleId = some op ↔ ∃ adapter action,
      op = .execute moduleId adapter (.action action) ∧ cycle.registry.getAdapter moduleId = some adapter ∧
        cycle.env (.proposeRepair moduleId adapter) = .ok (.action action) ∧ action.moduleId = .str moduleId ∧
        action.reversible.truthy = true ∧ action.requiresApproval.truthy = false := by
  simp only [execution, Option.bind_eq_bind, Option.bind_eq_some_iff, authorised_eq_some, Option.some.injEq]
  constructor
  · rintro ⟨proposal, hproposal, ⟨name, other⟩, ⟨hallowed, hasked, hother⟩, rfl⟩
    obtain ⟨adapter, action, rfl, hadapter, hanswer, hown⟩ := h.own moduleId proposal hproposal
    obtain rfl := PyData.str.inj (hown.symm.trans (Except.ok.inj hasked))
    obtain rfl := Option.some.inj (hadapter.symm.trans hother)
    rw [allowed_action, Except.ok.injEq, Bool.and_eq_true, Bool.not_eq_true'] at hallowed
    exact ⟨adapter, action, rfl, hadapter, hanswer, hown, hallowed⟩
  · rintro ⟨adapter, action, rfl, hadapter, hanswer, hown, hreversible, hfree⟩
    refine ⟨.action action, (cycleProposal_eq_some _ _ _ _).mpr ⟨adapter, hadapter, hanswer, congrArg Except.ok hown⟩,
      (moduleId, adapter), ⟨?_, congrArg Except.ok hown, hadapter⟩, rfl⟩
    rw [allowed_action, hreversible, hfree]
    rfl

-- Then every proposal gets its entry.
theorem ProposesActions.reportable (h : cycle.ProposesActions) (htexts : cycle.Describable) :
    ∀ moduleId ∈ cycle.registry.listModuleIds, ∀ proposal,
      cycleProposal cycle.registry cycle.env moduleId = some proposal →
        Reportable cycle.registry cycle.env proposal := by
  intro moduleId hmem proposal hproposal
  obtain ⟨adapter, action, rfl, hadapter, hanswer, hown⟩ := h.own moduleId proposal hproposal
  have hallowed := allowed_action action
  cases hpolicy : action.reversible.truthy && !action.requiresApproval.truthy with
  | false => exact .inl ⟨hpolicy ▸ hallowed, _, rfl⟩
  | true =>
      have htarget : adapterOf cycle.registry action.moduleId = .ok (some (moduleId, adapter)) :=
        (adapterOf_eq_ok cycle.registry action.moduleId (moduleId, adapter)).mpr ⟨hown, hadapter⟩
      refine .inr ⟨hpolicy ▸ hallowed, _, rfl, .inr ⟨moduleId, adapter, htarget, fun e he => ?_⟩⟩
      rw [Bool.and_eq_true, Bool.not_eq_true'] at hpolicy
      have hexecution := (h.execution_eq_some moduleId (.execute moduleId adapter (.action action))).mpr
        ⟨adapter, action, rfl, hadapter, hanswer, hown, hpolicy⟩
      cases he with
      | execute hraised => exact ⟨htexts moduleId hmem _ hexecution e hraised, _, rfl⟩
      | executed success _ hid => cases hid

end Cycle

section Calls

variable (rt : Runtime) {Adapter : Type} (registry : ModuleRegistry Adapter) (env : Behaviour Adapter)

-- Calls that only read the clock.
def ClockOnly (calls : List (CycleOp Adapter)) : Prop := ∀ op ∈ calls, ∃ reading, op = .now reading

-- A call of an adapter's `execute`.
def CycleOp.isExecution : CycleOp Adapter → Prop
  | .execute _ _ _ => True
  | _ => False

theorem now_calls (reading : Reading) : (@now Adapter reading).calls env = [.now reading] := by
  have hread := Prog.result_perform env (@CycleOp.now Adapter reading)
  rw [now]
  cases hmoment : env (.now reading) with
  | error e => rw [Prog.calls_bind_error env _ _ e (hread.trans hmoment), Prog.calls_perform]
  | ok moment =>
      rw [Prog.calls_bind_ok env _ _ moment (hread.trans hmoment), Prog.calls_perform]
      cases moment.aware with
      | false => rfl
      | true => rfl

theorem now_clockOnly (reading : Reading) : ClockOnly ((@now Adapter reading).calls env) := by
  intro op hop
  rw [now_calls, List.mem_singleton] at hop
  exact ⟨reading, hop⟩

theorem ClockOnly.append {first rest : List (CycleOp Adapter)} (hfirst : ClockOnly first) (hrest : ClockOnly rest) :
    ClockOnly (first ++ rest) := by
  intro op hop
  rcases List.mem_append.mp hop with h | h
  · exact hfirst op h
  · exact hrest op h

theorem ClockOnly.quiet {calls : List (CycleOp Adapter)} (h : ClockOnly calls) : ∀ op ∈ calls, ¬ op.isExecution := by
  intro op hop
  obtain ⟨reading, rfl⟩ := h op hop
  exact id

theorem readReport_calls (moduleId version : PyStr) (adapter : Adapter) (op : CycleOp Adapter)
    (h : op ∈ (readReport rt moduleId version adapter).calls env) : op = .inspect moduleId adapter := by
  rw [readReport] at h
  rcases Prog.mem_calls_bind env _ _ op h with hinspect | ⟨report, -, hrest⟩
  · rwa [Prog.calls_perform, List.mem_singleton] at hinspect
  rcases Prog.mem_calls_bind env _ _ op hrest with hread | ⟨reported, -, hrest⟩
  · rw [Prog.calls_liftM] at hread
    cases hread
  split at hrest
  · cases hrest
  rcases Prog.mem_calls_bind env _ _ op hrest with hread | ⟨shown, -, hrest⟩
  · rw [Prog.calls_liftM] at hread
    cases hread
  rcases Prog.mem_calls_bind env _ _ op hrest with htext | ⟨text, -, hend⟩
  · rw [Prog.calls_liftM] at htext
    cases htext
  · cases hend

theorem failedReport_calls (moduleId version : PyStr) (e : Raised) :
    (failedReport moduleId version e : Action Adapter Report).calls env = [] := by
  unfold failedReport
  cases e.text with
  | error e' => rfl
  | ok text => rfl

theorem inspectModule_calls (moduleId : PyStr) (op : CycleOp Adapter)
    (h : op ∈ (inspectModule rt registry moduleId).calls env) : ∃ adapter, op = .inspect moduleId adapter := by
  rw [inspectModule] at h
  rcases Prog.mem_calls_bind env _ _ op h with hspec | ⟨spec, -, hrest⟩
  · rw [Prog.calls_liftM] at hspec
    cases hspec
  · split at hrest
    · cases hrest
    · next adapter _ =>
        rw [Prog.calls_catching env _ _ (failedReport_calls env moduleId spec.version)] at hrest
        exact ⟨adapter, readReport_calls rt env moduleId spec.version adapter op hrest⟩

theorem inspectAll_quiet : ∀ op ∈ (inspectAll rt registry).calls env, ¬ op.isExecution := by
  intro op hop
  obtain ⟨moduleId, -, hmodule⟩ := Prog.mem_calls_each env _ _ op hop
  obtain ⟨adapter, rfl⟩ := inspectModule_calls rt registry env moduleId op hmodule
  exact id

theorem prepareRepairs_quiet : ∀ op ∈ (prepareRepairs registry).calls env, ¬ op.isExecution := by
  intro op hop
  rw [prepareRepairs] at hop
  rcases Prog.mem_calls_bind env _ _ op hop with heach | ⟨proposals, -, hend⟩
  · obtain ⟨moduleId, -, hmodule⟩ := Prog.mem_calls_each env _ _ op heach
    obtain ⟨adapter, -, rfl⟩ := proposeModule_calls registry env moduleId op hmodule
    exact id
  · cases hend

-- The executions of a cycle in which every one of them can be recorded.
def executions : List (CycleOp Adapter) := registry.listModuleIds.filterMap (execution registry env)

theorem executions_eq : (registry.listModuleIds.filterMap (cycleProposal registry env)).flatMap
    (fun proposal => (executeRepair registry proposal).calls env) = executions registry env := by
  unfold executions
  simp only [executeRepair_calls]
  induction registry.listModuleIds with
  | nil => rfl
  | cons moduleId rest ih =>
      rw [List.filterMap_cons, List.filterMap_cons, execution]
      cases cycleProposal registry env moduleId with
      | none => exact ih
      | some proposal =>
          simp only [Option.bind_eq_bind, Option.bind_some, List.flatMap_cons, ih]
          cases authorised registry proposal with
          | none => rfl
          | some target => rfl

-- The calls before the repairs.
def callsBefore : List (CycleOp Adapter) :=
  .now .started :: ((inspectAll rt registry).calls env ++ (prepareRepairs registry).calls env)

theorem callsBefore_quiet : ∀ op ∈ callsBefore rt registry env, ¬ op.isExecution := by
  refine List.forall_mem_cons.mpr ⟨id, List.forall_mem_append.mpr ⟨?_, ?_⟩⟩
  · exact inspectAll_quiet rt registry env
  · exact prepareRepairs_quiet registry env

-- The cycle comes to its repairs.
def Reaches : Prop := ClockAware env .started ∧ ∃ reports, (inspectAll rt registry).result env = .ok reports

end Calls

section CycleCalls

variable (rt : Runtime) {Adapter : Type} (cycle : Cycle Adapter)

-- A cycle either does not come to its repairs, or makes its executions in order, up to one that
-- cannot be recorded, before it only reads the clock.
inductive CycleCalls (calls : List (CycleOp Adapter)) : Prop
  | stopped (hnot : ¬ Reaches rt cycle.registry cycle.env) (hquiet : ∀ op ∈ calls, ¬ op.isExecution)
  | repaired (made tail : List (CycleOp Adapter)) (hreaches : Reaches rt cycle.registry cycle.env)
      (hmade : made <+: executions cycle.registry cycle.env)
      (hall : cycle.Describable → made = executions cycle.registry cycle.env) (htail : ClockOnly tail)
      (hcalls : calls = callsBefore rt cycle.registry cycle.env ++ (made ++ tail))

variable {cycle}

theorem CycleCalls.append {calls rest : List (CycleOp Adapter)} (h : CycleCalls rt cycle calls)
    (hrest : ClockOnly rest) : CycleCalls rt cycle (calls ++ rest) := by
  cases h with
  | stopped hnot hquiet => exact .stopped hnot (List.forall_mem_append.mpr ⟨hquiet, hrest.quiet⟩)
  | repaired made tail hreaches hmade hall htail hcalls =>
      refine .repaired made (tail ++ rest) hreaches hmade hall (htail.append hrest) ?_
      rw [hcalls, List.append_assoc, List.append_assoc]

-- The repairs are a beginning of the authorised ones, and all of these where every exception
-- has a text.
theorem executeSafeRepairs_calls (h : cycle.ProposesActions) :
    (executeSafeRepairs cycle.registry
        (cycle.registry.listModuleIds.filterMap (cycleProposal cycle.registry cycle.env))).calls cycle.env <+:
      executions cycle.registry cycle.env ∧
    (cycle.Describable → (executeSafeRepairs cycle.registry
        (cycle.registry.listModuleIds.filterMap (cycleProposal cycle.registry cycle.env))).calls cycle.env =
      executions cycle.registry cycle.env) := by
  constructor
  · rw [← executions_eq]
    exact Prog.calls_each_prefix cycle.env (executeRepair cycle.registry) _
  · intro htexts
    have hreturns := (executeSafeRepairs_isOk_iff cycle.registry cycle.env).mpr (h.reportable htexts)
    rw [executeSafeRepairs,
      Prog.calls_each_ok cycle.env _ _ ((Prog.result_each_isOk cycle.env _ _).mp hreturns), executions_eq]

theorem checkModules_calls (h : cycle.ProposesActions) :
    CycleCalls rt cycle ((checkModules rt cycle.registry).calls cycle.env) := by
  rw [checkModules]
  cases hstarted : (@now Adapter .started).result cycle.env with
  | error e =>
      rw [Prog.calls_bind_error cycle.env _ _ e hstarted]
      refine .stopped ?_ (now_clockOnly cycle.env .started).quiet
      rintro ⟨⟨moment, hmoment⟩, -⟩
      cases hstarted.symm.trans ((now_eq_ok cycle.env .started moment).mpr hmoment)
  | ok started =>
      rw [Prog.calls_bind_ok cycle.env _ _ started hstarted, now_calls]
      cases hreports : (inspectAll rt cycle.registry).result cycle.env with
      | error e =>
          rw [Prog.calls_bind_error cycle.env _ _ e hreports]
          refine .stopped ?_ (List.forall_mem_cons.mpr ⟨id, inspectAll_quiet rt cycle.registry cycle.env⟩)
          rintro ⟨-, reports, h⟩
          cases hreports.symm.trans h
      | ok reports =>
          have hreaches : Reaches rt cycle.registry cycle.env :=
            ⟨⟨started, (now_eq_ok cycle.env .started started).mp hstarted⟩, reports, hreports⟩
          have hproposals := (prepareRepairs_eq_ok cycle.registry cycle.env _).mpr ⟨h.attributable, rfl⟩
          obtain ⟨hmade, hall⟩ := executeSafeRepairs_calls h
          have hsplit : ∀ made tail, callsBefore rt cycle.registry cycle.env ++ (made ++ tail) = [.now .started] ++
              ((inspectAll rt cycle.registry).calls cycle.env ++ ((prepareRepairs cycle.registry).calls cycle.env ++
                (made ++ tail))) := by
            simp [callsBefore]
          rw [Prog.calls_bind_ok cycle.env _ _ reports hreports, Prog.calls_bind_ok cycle.env _ _ _ hproposals,
            executeIfAny_eq]
          cases hexecuted : (executeSafeRepairs cycle.registry
              (cycle.registry.listModuleIds.filterMap (cycleProposal cycle.registry cycle.env))).result cycle.env with
          | error e =>
              rw [Prog.calls_bind_error cycle.env _ _ e hexecuted]
              refine .repaired _ [] hreaches hmade hall (by simp [ClockOnly]) ?_
              rw [hsplit, List.append_nil]
          | ok executed =>
              rw [Prog.calls_bind_ok cycle.env _ _ executed hexecuted]
              refine .repaired _ _ hreaches hmade hall ?_ (hsplit _ _).symm
              -- What follows the repairs asks no adapter.
              intro op hop
              rcases Prog.mem_calls_bind cycle.env _ _ op hop with haggregate | ⟨aggregate, -, hrest⟩
              · rw [Prog.calls_liftM] at haggregate
                cases haggregate
              rcases Prog.mem_calls_bind cycle.env _ _ op hrest with hfinished | ⟨finished, -, hrest⟩
              · exact now_clockOnly cycle.env .finished op hfinished
              rcases Prog.mem_calls_bind cycle.env _ _ op hrest with hstatuses | ⟨statuses, -, hend⟩
              · rw [Prog.calls_liftM] at hstatuses
                cases hstatuses
              · cases hend

theorem runCycle_calls (scheduler : CycleScheduler) (h : cycle.ProposesActions) :
    CycleCalls rt cycle ((runCycle rt cycle.registry scheduler).calls cycle.env) := by
  rw [runCycle, Prog.calls_bind_ok cycle.env _ _ _ (Prog.result_attempt cycle.env _), Prog.calls_attempt]
  refine (checkModules_calls rt h).append rt ?_
  cases (checkModules rt cycle.registry).result cycle.env with
  | error e => exact fun op hop => by cases hop
  | ok result =>
      intro op hop
      rcases Prog.mem_calls_bind cycle.env _ _ op hop with hread | ⟨answer, -, hend⟩
      · rw [Prog.calls_attempt] at hread
        exact now_clockOnly cycle.env .lastRun op hread
      · cases answer with
        | error e => cases hend
        | ok moment => cases hend

theorem prepareRepairs_asks (h : cycle.ProposesActions) (moduleId : PyStr) (adapter : Adapter)
    (hadapter : cycle.registry.getAdapter moduleId = some adapter) :
    .proposeRepair moduleId adapter ∈ callsBefore rt cycle.registry cycle.env := by
  have hreturns : ∀ other ∈ cycle.registry.listModuleIds, ∃ found,
      (proposeModule cycle.registry other).result cycle.env = .ok found :=
    fun other _ => ⟨_, (proposeModule_eq_ok cycle.registry cycle.env other _).mpr
      ⟨fun adapter proposal => h.attributable other adapter proposal, rfl⟩⟩
  obtain ⟨proposals, hproposals⟩ := (Prog.result_each_isOk cycle.env _ _).mpr hreturns
  refine List.mem_cons_of_mem _ (List.mem_append_right _ ?_)
  rw [prepareRepairs, Prog.calls_bind_ok cycle.env _ _ proposals hproposals,
    Prog.calls_each_ok cycle.env _ _ hreturns, List.mem_append, List.mem_flatMap]
  refine .inl ⟨moduleId, cycle.registry.mem_of_getAdapter moduleId adapter hadapter, ?_⟩
  rw [proposeModule, hadapter, Prog.calls_bind_ok cycle.env _ _ _ (Prog.result_attempt cycle.env _),
    Prog.calls_attempt, Prog.calls_perform]
  exact List.mem_cons_self

end CycleCalls

section Confinement

variable (rt : Runtime) {Adapter : Type} (cycle : Cycle Adapter)

-- A call of the `execute` of this module's adapter.
def CycleOp.executes (moduleId : PyStr) : CycleOp Adapter → Bool
  | .execute name _ _ => name = moduleId
  | _ => false

-- An execution follows the proposal of the same adapter, for its own module, that the
-- policy allows, and a module has at most one.
structure Confined (calls : List (CycleOp Adapter)) : Prop where
  proposed : ∀ before moduleId adapter proposal after, calls = before ++ .execute moduleId adapter proposal :: after →
    cycle.registry.getAdapter moduleId = some adapter ∧ .proposeRepair moduleId adapter ∈ before ∧
      cycle.env (.proposeRepair moduleId adapter) = .ok proposal ∧
      ∃ action, proposal = .action action ∧ action.moduleId = .str moduleId ∧ action.reversible.truthy = true ∧
        action.requiresApproval.truthy = false
  once : ∀ moduleId, (calls.filter (CycleOp.executes moduleId)).length ≤ 1

theorem prefix_of_notMem (first rest before after : List α) (x : α) (h : before ++ x :: after = first ++ rest)
    (hx : x ∉ first) : ∃ more, before = first ++ more ∧ rest = more ++ x :: after := by
  rcases List.append_eq_append_iff.mp h with ⟨more, hfirst, hrest⟩ | ⟨more, hbefore, hrest⟩
  · cases more with
    | nil => exact ⟨[], by simpa using hfirst.symm, by simpa using hrest.symm⟩
    | cons y more =>
        obtain ⟨rfl, -⟩ := List.cons.inj hrest
        exact absurd (by rw [hfirst]; simp) hx
  · exact ⟨more, hbefore, hrest⟩

-- Of elements that differ, at most one yields something that meets `p`.
theorem filter_filterMap_length_le_one (f : α → Option β) (p : β → Bool) (a : α)
    (hf : ∀ other b, f other = some b → p b = true → other = a) (as : List α) (has : as.Nodup) :
    ((as.filterMap f).filter p).length ≤ 1 := by
  induction as with
  | nil => simp
  | cons x as ih =>
      obtain ⟨hx, has⟩ := List.nodup_cons.mp has
      cases hfx : f x with
      | none => simpa only [List.filterMap_cons, hfx] using ih has
      | some b =>
          rw [List.filterMap_cons_some hfx]
          by_cases hb : p b = true
          · have hnone : (as.filterMap f).filter p = [] := by
              refine List.filter_eq_nil_iff.mpr fun c hc hpc => ?_
              obtain ⟨other, hother, hfc⟩ := List.mem_filterMap.mp hc
              rw [hf other c hfc hpc, ← hf x b hfx hb] at hother
              exact hx hother
            rw [List.filter_cons_of_pos hb, hnone, List.length_singleton]
          · rw [List.filter_cons_of_neg hb]
            exact ih has

section Filter

variable (p : CycleOp Adapter → Bool) (hp : ∀ op, p op = true → op.isExecution)

include hp

theorem filter_quiet (calls : List (CycleOp Adapter)) (h : ∀ op ∈ calls, ¬ op.isExecution) : calls.filter p = [] :=
  List.filter_eq_nil_iff.mpr fun op hop hop' => h op hop (hp op hop')

theorem filter_repaired (made tail : List (CycleOp Adapter)) (htail : ClockOnly tail) :
    (callsBefore rt cycle.registry cycle.env ++ (made ++ tail)).filter p = made.filter p := by
  rw [List.filter_append, List.filter_append, filter_quiet p hp _ (callsBefore_quiet rt cycle.registry cycle.env),
    filter_quiet p hp tail htail.quiet, List.nil_append, List.append_nil]

end Filter

theorem executes_isExecution (moduleId : PyStr) (op : CycleOp Adapter) (h : op.executes moduleId = true) :
    op.isExecution := by
  cases op with
  | execute name adapter proposal => exact trivial
  | _ => cases h

theorem confined_of_calls (h : cycle.ProposesActions) (calls : List (CycleOp Adapter))
    (hcalls : CycleCalls rt cycle calls) : Confined cycle calls := by
  cases hcalls with
  | stopped hnot hquiet =>
      constructor
      · rintro before moduleId adapter proposal after rfl
        exact absurd trivial (hquiet (.execute moduleId adapter proposal) (by simp))
      · intro moduleId
        rw [filter_quiet _ (executes_isExecution moduleId) calls hquiet]
        exact Nat.zero_le 1
  | repaired made tail hreaches hmade hall htail hcalls =>
      subst hcalls
      constructor
      · intro before moduleId adapter proposal after hsplit
        have hfirst : CycleOp.execute moduleId adapter proposal ∉ callsBefore rt cycle.registry cycle.env :=
          fun hmem => callsBefore_quiet rt cycle.registry cycle.env _ hmem trivial
        obtain ⟨more, rfl, hrest⟩ := prefix_of_notMem _ _ before after _ hsplit.symm hfirst
        have hin : CycleOp.execute moduleId adapter proposal ∈ made ++ tail := by
          rw [hrest]
          simp
        have hmem : CycleOp.execute moduleId adapter proposal ∈ executions cycle.registry cycle.env := by
          rcases List.mem_append.mp hin with hin | hin
          · exact hmade.subset hin
          · exact absurd trivial (htail.quiet _ hin)
        obtain ⟨name, -, hexecution⟩ := List.mem_filterMap.mp hmem
        obtain ⟨_, action, hop, hadapter, hanswer, hown, hreversible, hfree⟩ :=
          (h.execution_eq_some name _).mp hexecution
        obtain ⟨rfl, rfl, rfl⟩ := CycleOp.execute.inj hop
        have hasked := prepareRepairs_asks rt h moduleId adapter hadapter
        exact ⟨hadapter, List.mem_append_left _ hasked, hanswer, action, rfl, hown, hreversible, hfree⟩
      · intro moduleId
        rw [filter_repaired rt cycle _ (executes_isExecution moduleId) made tail htail]
        refine (hmade.sublist.filter _).length_le.trans ?_
        refine filter_filterMap_length_le_one _ _ moduleId ?_ _ cycle.registry.listModuleIds_nodup
        intro other op hexecution hexecutes
        obtain ⟨_, _, rfl, -⟩ := (h.execution_eq_some other op).mp hexecution
        simpa [CycleOp.executes] using hexecutes

end Confinement

end V91Core.Agent
