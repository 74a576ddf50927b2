import V91Core.Agent.Cycle

namespace V91Core.Agent

open V91Core.Python V91Core.Effect

variable {Adapter : Type} (registry : ModuleRegistry Adapter) (env : Behaviour Adapter)

-- The agent can tell whose proposal an answer is.
def Attributable (proposal : Proposal) : Prop :=
  proposal = .none ∨ ∃ proposed, proposal.moduleId .compared = .ok proposed

-- The proposal in an answer, if it is one for this module.
def ownProposal (moduleId : PyStr) (answer : Except Raised Proposal) : Option Proposal := do
  let proposal ← answer.toOption
  let proposed ← (proposal.moduleId .compared).toOption
  if proposed.isStr moduleId then some proposal else none

theorem ownProposal_eq_some (moduleId : PyStr) (answer : Except Raised Proposal) (proposal : Proposal) :
    ownProposal moduleId answer = some proposal ↔
      answer = .ok proposal ∧ proposal.moduleId .compared = .ok (.str moduleId) := by
  cases answer with
  | error e => exact iff_of_false (by simp [ownProposal, Except.toOption]) (by simp)
  | ok answered =>
      rw [ownProposal, Except.toOption, Option.bind_eq_bind, Option.bind_some, Except.ok.injEq]
      cases hproposed : answered.moduleId .compared with
      | error e =>
          refine iff_of_false nofun ?_
          rintro ⟨rfl, h⟩
          cases hproposed.symm.trans h
      | ok proposed =>
          rw [Except.toOption, Option.bind_eq_bind, Option.bind_some, Option.ite_none_right_eq_some, isStr_iff,
            Option.some.injEq]
          constructor
          · rintro ⟨rfl, rfl⟩
            exact ⟨rfl, hproposed⟩
          · rintro ⟨rfl, h⟩
            exact ⟨Except.ok.inj (hproposed.symm.trans h), rfl⟩

theorem keepOwn_eq_ok (moduleId : PyStr) (answer : Except Raised Proposal) (found : Option Proposal) :
    keepOwn moduleId answer = .ok found ↔
      (∀ proposal, answer = .ok proposal → Attributable proposal) ∧ found = ownProposal moduleId answer := by
  unfold keepOwn
  split
  · refine ⟨fun h => ⟨fun proposal hanswer => ?_, (Except.ok.inj h).symm⟩, fun h => congrArg Except.ok h.2.symm⟩
    cases hanswer
  · refine ⟨fun h => ⟨fun proposal hanswer => .inl (Except.ok.inj hanswer).symm, (Except.ok.inj h).symm⟩, ?_⟩
    exact fun h => congrArg Except.ok h.2.symm
  · next proposal hnone =>
      rw [ownProposal, Except.toOption, Option.bind_eq_bind, Option.bind_some]
      cases hproposed : proposal.moduleId .compared with
      | error e =>
          refine iff_of_false nofun ?_
          rintro ⟨hall, -⟩
          rcases hall proposal rfl with rfl | ⟨proposed, h⟩
          · exact hnone rfl
          · cases hproposed.symm.trans h
      | ok proposed =>
          have hall : ∀ other, (Except.ok proposal : Except Raised Proposal) = .ok other → Attributable other := by
            intro other hother
            obtain rfl := Except.ok.inj hother
            exact .inr ⟨proposed, hproposed⟩
          rw [ok_bind, and_iff_right hall]
          exact ⟨fun h => (Except.ok.inj h).symm, fun h => congrArg Except.ok h.symm⟩

section Modules

variable {Adapter : Type} (registry : ModuleRegistry Adapter) (env : Behaviour Adapter)

-- The proposal that counts for a module in a cycle.
def cycleProposal (moduleId : PyStr) : Option Proposal := do
  let adapter ← registry.getAdapter moduleId
  ownProposal moduleId (env (.proposeRepair moduleId adapter))

theorem cycleProposal_eq_some (moduleId : PyStr) (proposal : Proposal) :
    cycleProposal registry env moduleId = some proposal ↔
      ∃ adapter, registry.getAdapter moduleId = some adapter ∧
        env (.proposeRepair moduleId adapter) = .ok proposal ∧
          proposal.moduleId .compared = .ok (.str moduleId) := by
  rw [cycleProposal, Option.bind_eq_bind, Option.bind_eq_some_iff]
  simp only [ownProposal_eq_some]

theorem proposeModule_eq_ok (moduleId : PyStr) (found : Option Proposal) :
    (proposeModule registry moduleId).result env = .ok found ↔
      (∀ adapter proposal, registry.getAdapter moduleId = some adapter →
        env (.proposeRepair moduleId adapter) = .ok proposal → Attributable proposal) ∧
        found = cycleProposal registry env moduleId := by
  rw [proposeModule, cycleProposal]
  cases registry.getAdapter moduleId with
  | none =>
      refine ⟨fun h => ⟨fun adapter proposal hadapter => ?_, (Except.ok.inj h).symm⟩,
        fun h => congrArg Except.ok h.2.symm⟩
      cases hadapter
  | some adapter =>
      rw [Prog.result_bind, Prog.result_attempt, Prog.result_perform, ok_bind, Prog.result_liftM, keepOwn_eq_ok,
        Option.bind_eq_bind, Option.bind_some]
      refine and_congr_left' ?_
      constructor
      · intro h other proposal hadapter hanswer
        obtain rfl := Option.some.inj hadapter
        exact h proposal hanswer
      · exact fun h proposal hanswer => h adapter proposal rfl hanswer

theorem proposeModule_calls (moduleId : PyStr) (op : CycleOp Adapter)
    (h : op ∈ (proposeModule registry moduleId).calls env) :
    ∃ adapter, registry.getAdapter moduleId = some adapter ∧ op = .proposeRepair moduleId adapter := by
  rw [proposeModule] at h
  cases hadapter : registry.getAdapter moduleId with
  | none =>
      rw [hadapter] at h
      cases h
  | some adapter =>
      rw [hadapter, Prog.calls_bind_ok env _ _ _ (Prog.result_attempt env _), Prog.calls_attempt,
        Prog.calls_perform, Prog.calls_liftM, List.append_nil, List.mem_singleton] at h
      exact ⟨adapter, rfl, h⟩

-- Every answer of `propose_repair` in a cycle says whose proposal it is.
def AllAttributable : Prop :=
  ∀ moduleId adapter proposal, registry.getAdapter moduleId = some adapter →
    env (.proposeRepair moduleId adapter) = .ok proposal → Attributable proposal

theorem prepareRepairs_eq_ok (proposals : List Proposal) :
    (prepareRepairs registry).result env = .ok proposals ↔
      AllAttributable registry env ∧ proposals = registry.listModuleIds.filterMap (cycleProposal registry env) := by
  rw [prepareRepairs, Prog.result_bind, bind_eq_ok]
  simp only [Prog.result_each_eq_ok env _ _ _ (proposeModule_eq_ok registry env)]
  constructor
  · rintro ⟨_, ⟨hall, rfl⟩, h⟩
    refine ⟨fun moduleId adapter proposal hadapter => ?_, ?_⟩
    · exact hall moduleId (registry.mem_of_getAdapter moduleId adapter hadapter) adapter proposal hadapter
    · rw [← Except.ok.inj h, List.reduceOption, List.filterMap_map]
      rfl
  · rintro ⟨hall, rfl⟩
    refine ⟨_, ⟨fun moduleId _ adapter proposal => hall moduleId adapter proposal, rfl⟩, ?_⟩
    rw [List.reduceOption]
    change Except.ok (List.filterMap id _) = _
    rw [List.filterMap_map]
    rfl

-- The module whose adapter `execute_safe_repairs` calls for a proposal.
def authorised (proposal : Proposal) : Option (PyStr × Adapter) :=
  match allowed proposal, proposal.moduleId .asked with
  | .ok true, .ok (.str name) => (registry.getAdapter name).map (name, ·)
  | _, _ => none

theorem adapterOf_eq_ok (moduleId : PyData) (target : PyStr × Adapter) :
    adapterOf registry moduleId = .ok (some target) ↔
      moduleId = .str target.1 ∧ registry.getAdapter target.1 = some target.2 := by
  have hother : ∀ value : PyData, (∀ text, value ≠ .str text) →
      adapterOf registry value = .error .typeError ∨ adapterOf registry value = .ok none := by
    intro value hstr
    unfold adapterOf PyData.lookupKey
    cases value.hashable with
    | false => exact .inl rfl
    | true =>
        cases value with
        | str text => exact absurd rfl (hstr text)
        | _ => exact .inr rfl
  by_cases hstr : ∀ text, moduleId ≠ .str text
  · refine iff_of_false (fun h => ?_) (fun h => hstr target.1 h.1)
    rcases hother moduleId hstr with herror | hnone
    · cases herror.symm.trans h
    · cases hnone.symm.trans h
  · obtain ⟨text, rfl⟩ := not_forall_not.mp hstr
    obtain ⟨name, adapter⟩ := target
    change Except.ok ((registry.getAdapter text).map (text, ·)) = .ok (some (name, adapter)) ↔ _
    rw [Except.ok.injEq, Option.map_eq_some_iff]
    simp only [Prod.mk.injEq, PyData.str.injEq]
    constructor
    · rintro ⟨found, hfound, rfl, rfl⟩
      exact ⟨rfl, hfound⟩
    · rintro ⟨rfl, hfound⟩
      exact ⟨adapter, hfound, rfl, rfl⟩

theorem authorised_eq_some (proposal : Proposal) (target : PyStr × Adapter) :
    authorised registry proposal = some target ↔ allowed proposal = .ok true ∧
      proposal.moduleId .asked = .ok (.str target.1) ∧ registry.getAdapter target.1 = some target.2 := by
  obtain ⟨name, adapter⟩ := target
  unfold authorised
  split
  · next other hallowed hmodule =>
      rw [Option.map_eq_some_iff, hallowed, hmodule]
      simp only [Prod.mk.injEq, Except.ok.injEq, PyData.str.injEq, true_and]
      constructor
      · rintro ⟨found, hfound, rfl, rfl⟩
        exact ⟨rfl, hfound⟩
      · rintro ⟨rfl, hfound⟩
        exact ⟨adapter, hfound, rfl, rfl⟩
  · next hnot =>
      refine iff_of_false (by simp) ?_
      rintro ⟨hallowed, hmodule, -⟩
      exact hnot name hallowed hmodule

end Modules

section Executions

variable {Adapter : Type} (registry : ModuleRegistry Adapter) (env : Behaviour Adapter)

-- What an execution raises.
inductive ExecutionRaises (name : PyStr) (adapter : Adapter) (proposal : Proposal) (e : Raised) : Prop
  | execute (h : env (.execute name adapter proposal) = .error e)
  | executed (success : PyData) (h : env (.execute name adapter proposal) = .ok success)
      (hid : proposal.moduleId .executed = .error e)

-- The handler can record it.
def Recordable (name : PyStr) (adapter : Adapter) (proposal : Proposal) : Prop :=
  ∀ e, ExecutionRaises env name adapter proposal e →
    e.Printable ∧ ∃ moduleId, proposal.moduleId .failed = .ok moduleId

theorem failedEntry_calls (proposal : Proposal) (e : Raised) :
    (failedEntry proposal e : Action Adapter (PyData × PyStr)).calls env = [] := by
  unfold failedEntry
  cases proposal.moduleId .failed with
  | error e' => rfl
  | ok moduleId =>
      cases e.text with
      | error e' => rfl
      | ok text => rfl

theorem failedEntry_isOk_iff (proposal : Proposal) (e : Raised) :
    (∃ entry, (failedEntry proposal e : Action Adapter (PyData × PyStr)).result env = .ok entry) ↔
      e.Printable ∧ ∃ moduleId, proposal.moduleId .failed = .ok moduleId := by
  simp only [failedEntry, Prog.result_bind, Prog.result_liftM, bind_eq_ok, plain_eq_ok, Raised.Printable]
  constructor
  · rintro ⟨entry, moduleId, hid, text, htext, -⟩
    exact ⟨⟨text, htext⟩, moduleId, hid⟩
  · rintro ⟨⟨text, htext⟩, moduleId, hid⟩
    exact ⟨_, moduleId, hid, text, htext, rfl⟩

theorem executedEntry_result (name : PyStr) (adapter : Adapter) (proposal : Proposal) :
    (executedEntry name adapter proposal).result env = (do
      let success ← env (.execute name adapter proposal)
      let moduleId ← proposal.moduleId .executed
      return (moduleId, if success.truthy then py "SUCCESS" else py "FAILED")) := by
  rw [executedEntry, Prog.result_bind, Prog.result_perform]
  congr 1
  funext success
  rw [Prog.result_bind, Prog.result_liftM]
  rfl

theorem executedEntry_eq_error (name : PyStr) (adapter : Adapter) (proposal : Proposal) (e : Raised) :
    (executedEntry name adapter proposal).result env = .error e ↔ ExecutionRaises env name adapter proposal e := by
  rw [executedEntry_result]
  constructor
  · intro h
    cases hsuccess : env (.execute name adapter proposal) with
    | error e' =>
        rw [hsuccess, error_bind] at h
        exact .execute (Except.error.inj h ▸ hsuccess)
    | ok success =>
        rw [hsuccess, ok_bind] at h
        cases hid : proposal.moduleId .executed with
        | error e' =>
            rw [hid, error_bind] at h
            exact .executed success hsuccess (Except.error.inj h ▸ hid)
        | ok moduleId =>
            rw [hid] at h
            cases h
  · intro h
    cases h with
    | execute h => rw [h, error_bind]
    | executed success h hid => rw [h, ok_bind, hid, error_bind]

theorem tryExecute_calls (name : PyStr) (adapter : Adapter) (proposal : Proposal) :
    (tryExecute name adapter proposal).calls env = [.execute name adapter proposal] := by
  refine (Prog.calls_catching env _ _ (failedEntry_calls env proposal)).trans ?_
  have hcall := Prog.result_perform env (CycleOp.execute name adapter proposal)
  unfold executedEntry
  cases hsuccess : env (.execute name adapter proposal) with
  | error e => rw [Prog.calls_bind_error env _ _ e (hcall.trans hsuccess), Prog.calls_perform]
  | ok success =>
      rw [Prog.calls_bind_ok env _ _ success (hcall.trans hsuccess), Prog.calls_perform]
      cases proposal.moduleId .executed with
      | error e => rfl
      | ok moduleId => rfl

theorem tryExecute_isOk_iff (name : PyStr) (adapter : Adapter) (proposal : Proposal) :
    (∃ entry, (tryExecute name adapter proposal).result env = .ok entry) ↔ Recordable env name adapter proposal := by
  unfold tryExecute Recordable
  simp only [← executedEntry_eq_error]
  cases hresult : (executedEntry name adapter proposal).result env with
  | ok entry => exact iff_of_true ⟨entry, Prog.result_catching_ok env _ _ _ hresult⟩ (by simp)
  | error e =>
      rw [Prog.result_catching_error env _ _ e hresult, failedEntry_isOk_iff]
      simp only [Except.error.injEq, forall_eq']

-- The execution of an authorised proposal is the only call.
theorem executeRepair_calls (proposal : Proposal) :
    (executeRepair registry proposal).calls env =
      ((authorised registry proposal).map fun target => .execute target.1 target.2 proposal).toList := by
  have hnone : ∀ p : Action Adapter (PyData × PyStr), p.calls env = [] →
      (∀ target, authorised registry proposal ≠ some target) → p.calls env =
        ((authorised registry proposal).map fun target => .execute target.1 target.2 proposal).toList := by
    intro p hp hauthorised
    rw [hp, Option.eq_none_iff_forall_ne_some.mpr hauthorised]
    rfl
  simp only [ne_eq, authorised_eq_some] at hnone
  rw [executeRepair]
  cases hallowed : allowed proposal with
  | error e =>
      rw [hallowed] at hnone
      exact hnone _ rfl (by simp)
  | ok isAllowed =>
      rw [hallowed] at hnone
      cases isAllowed with
      | false =>
          refine hnone _ ?_ (by simp)
          cases proposal.moduleId .denied with
          | error e => rfl
          | ok moduleId => rfl
      | true =>
          cases hasked : proposal.moduleId .asked with
          | error e =>
              rw [hasked] at hnone
              exact hnone _ rfl (by simp)
          | ok asked =>
              rw [hasked] at hnone
              change Prog.calls env (liftM (plain (adapterOf registry asked)) >>= _) = _
              have hfound := adapterOf_eq_ok registry asked
              cases htarget : adapterOf registry asked with
              | error e =>
                  rw [htarget] at hfound
                  refine hnone _ rfl (fun target h => ?_)
                  cases (hfound target).mpr ⟨Except.ok.inj h.2.1, h.2.2⟩
              | ok found =>
                  rw [htarget] at hfound
                  cases found with
                  | none =>
                      refine hnone _ ?_ (fun target h => ?_)
                      · cases proposal.moduleId .unanswered with
                        | error e => rfl
                        | ok moduleId => rfl
                      · cases (hfound target).mpr ⟨Except.ok.inj h.2.1, h.2.2⟩
                  | some target =>
                      obtain ⟨hname, hadapter⟩ := (hfound target).mp rfl
                      have hsome : authorised registry proposal = some target := by
                        rw [authorised_eq_some, hallowed, hasked, hname]
                        exact ⟨rfl, rfl, hadapter⟩
                      rw [hsome]
                      exact tryExecute_calls env target.1 target.2 proposal

-- An entry for the proposal can be made: the attributes that it takes are there, and what
-- its execution raises can be recorded.
def Reportable (proposal : Proposal) : Prop :=
  (allowed proposal = .ok false ∧ ∃ moduleId, proposal.moduleId .denied = .ok moduleId) ∨
    allowed proposal = .ok true ∧ ∃ asked, proposal.moduleId .asked = .ok asked ∧
      ((adapterOf registry asked = .ok none ∧ ∃ moduleId, proposal.moduleId .unanswered = .ok moduleId) ∨
        ∃ name adapter, adapterOf registry asked = .ok (some (name, adapter)) ∧ Recordable env name adapter proposal)

theorem executeRepair_isOk_iff (proposal : Proposal) :
    (∃ entry, (executeRepair registry proposal).result env = .ok entry) ↔ Reportable registry env proposal := by
  unfold Reportable
  rw [executeRepair, Prog.result_bind, Prog.result_liftM]
  cases allowed proposal with
  | error e => exact iff_of_false (by simp) (by simp)
  | ok isAllowed =>
      rw [ok_bind]
      cases isAllowed with
      | false =>
          have hdenied : Except.ok (ε := Raised) false ≠ .ok true := by simp
          rw [or_iff_left fun h => hdenied h.1, and_iff_right rfl]
          simp only [Bool.not_false, if_true, Prog.result_bind, Prog.result_liftM, bind_eq_ok]
          exact ⟨fun ⟨_, moduleId, hid, _⟩ => ⟨moduleId, hid⟩, fun ⟨moduleId, hid⟩ => ⟨_, moduleId, hid, rfl⟩⟩
      | true =>
          have hallowed : Except.ok (ε := Raised) true ≠ .ok false := by simp
          rw [or_iff_right fun h => hallowed h.1, and_iff_right rfl, Bool.not_true, if_neg Bool.false_ne_true,
            Prog.result_bind, Prog.result_liftM]
          cases proposal.moduleId .asked with
          | error e => exact iff_of_false (by simp) (by simp)
          | ok asked =>
              simp only [ok_bind, Except.ok.injEq, exists_eq_left', Prog.result_bind, Prog.result_liftM]
              cases htarget : adapterOf registry asked with
              | error e => exact iff_of_false (by simp) (by simp)
              | ok found =>
                  rw [plain_ok, ok_bind]
                  cases found with
                  | none =>
                      dsimp only
                      rw [Prog.result_bind, Prog.result_liftM]
                      simp only [bind_eq_ok]
                      constructor
                      · rintro ⟨entry, moduleId, hid, -⟩
                        exact .inl ⟨trivial, moduleId, hid⟩
                      · rintro (⟨-, moduleId, hid⟩ | ⟨name, adapter, h, -⟩)
                        · exact ⟨_, moduleId, hid, rfl⟩
                        · cases h
                  | some target =>
                      obtain ⟨name, adapter⟩ := target
                      dsimp only
                      rw [tryExecute_isOk_iff]
                      constructor
                      · exact fun h => .inr ⟨name, adapter, rfl, h⟩
                      · rintro (⟨h, -⟩ | ⟨name', adapter', h, hrecordable⟩)
                        · cases h
                        · obtain ⟨rfl, rfl⟩ := Prod.mk.inj (Option.some.inj (Except.ok.inj h))
                          exact hrecordable

end Executions

end V91Core.Agent
