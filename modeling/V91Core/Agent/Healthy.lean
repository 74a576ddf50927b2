import V91Core.Agent.Inspection
import V91Core.Agent.Proposals

namespace V91Core.Agent

open V91Core.Python V91Core.Effect

section Cycle

variable (rt : Runtime) {Adapter : Type} (registry : ModuleRegistry Adapter) (env : Behaviour Adapter)

theorem now_eq_ok (reading : Reading) (moment : Moment) :
    (@now Adapter reading).result env = .ok moment ↔
      env (.now reading) = .ok moment ∧ moment.aware = true := by
  rw [now, Prog.result_bind, Prog.result_perform, bind_eq_ok]
  constructor
  · rintro ⟨read, hread, h⟩
    cases haware : read.aware with
    | false =>
        rw [haware] at h
        cases h
    | true =>
        rw [haware] at h
        obtain rfl := Except.ok.inj h
        exact ⟨hread, haware⟩
  · rintro ⟨hread, haware⟩
    refine ⟨moment, hread, ?_⟩
    rw [haware]
    rfl

-- The reading gives a time with a time zone.
def ClockAware (reading : Reading) : Prop := ∃ moment, env (.now reading) = .ok moment ∧ moment.aware = true

-- The text that the aggregate takes from each module.
def cycleTexts : List PyStr :=
  registry.listModuleIds.filterMap fun moduleId => textOf (cycleStatus registry env moduleId .aggregated)

-- What a cycle reads of the adapters' objects is there, and at the end the reports show the
-- ids of the modules.
structure Readable : Prop where
  explained : Explained registry env
  proposals : AllAttributable registry env
  repairs : ∀ moduleId ∈ registry.listModuleIds, ∀ proposal, cycleProposal registry env moduleId = some proposal →
    Reportable registry env proposal
  statuses : ∀ moduleId ∈ registry.listModuleIds, (textOf (cycleStatus registry env moduleId .aggregated)).isSome
  shown : ∀ moduleId ∈ registry.listModuleIds, Shown rt (cycleStatus registry env moduleId .listed)
  ids : ∃ ids : List PyStr, ids.Perm registry.listModuleIds ∧
    registry.listModuleIds.map (cycleKey registry env) = ids.map fun moduleId => .ok (.str moduleId)

theorem executeSafeRepairs_isOk_iff :
    (∃ executed, (executeSafeRepairs registry
        (registry.listModuleIds.filterMap (cycleProposal registry env))).result env = .ok executed) ↔
      ∀ moduleId ∈ registry.listModuleIds, ∀ proposal, cycleProposal registry env moduleId = some proposal →
        Reportable registry env proposal := by
  rw [executeSafeRepairs, Prog.result_each_isOk]
  simp only [List.mem_filterMap, forall_exists_index, and_imp, executeRepair_isOk_iff]
  exact ⟨fun h moduleId hmem proposal => h proposal moduleId hmem,
    fun h proposal moduleId hmem => h moduleId hmem proposal⟩

theorem executeIfAny_eq (proposals : List Proposal) :
    executeIfAny registry proposals = executeSafeRepairs registry proposals := by
  cases proposals with
  | nil => rfl
  | cons proposal proposals => rfl

-- What the reports of a cycle show at a moment.
theorem forall_reports (reports : List Report) (h : (inspectAll rt registry).result env = .ok reports) (look : Look)
    (P : Except Raised StatusValue → Prop) :
    (∀ report ∈ reports, P (report.status look)) ↔
      ∀ moduleId ∈ registry.listModuleIds, P (cycleStatus registry env moduleId look) := by
  have hstatus := (inspectAll_ok rt registry env reports h).2 look
  calc (∀ report ∈ reports, P (report.status look))
      ↔ ∀ status ∈ reports.map (Report.status · look), P status := by simp
    _ ↔ ∀ status ∈ registry.listModuleIds.map (cycleStatus registry env · look), P status := by rw [hstatus]
    _ ↔ _ := by simp

theorem texts_of_reports (reports : List Report) (h : (inspectAll rt registry).result env = .ok reports) :
    (reports.filterMap fun report => textOf (report.status .aggregated)) = cycleTexts registry env := by
  have hstatus := (inspectAll_ok rt registry env reports h).2 .aggregated
  calc (reports.filterMap fun report => textOf (report.status .aggregated))
      = (reports.map (Report.status · .aggregated)).filterMap textOf := by
        rw [List.filterMap_map]
        rfl
    _ = (registry.listModuleIds.map (cycleStatus registry env · .aggregated)).filterMap textOf := by rw [hstatus]
    _ = cycleTexts registry env := by
        rw [List.filterMap_map]
        rfl

theorem lists_iff (reports : List Report) (h : (inspectAll rt registry).result env = .ok reports) :
    (∃ entries, moduleStatuses rt reports = .ok entries ∧ Lists registry.listModuleIds entries) ↔
      (∀ moduleId ∈ registry.listModuleIds, Shown rt (cycleStatus registry env moduleId .listed)) ∧
        ∃ ids : List PyStr, ids.Perm registry.listModuleIds ∧
          registry.listModuleIds.map (cycleKey registry env) = ids.map fun moduleId => .ok (.str moduleId) := by
  have hkeys := (inspectAll_ok rt registry env reports h).1
  have hlength : reports.length = registry.listModuleIds.length := by
    have hboth := congrArg List.length hkeys
    rwa [List.length_map, List.length_map] at hboth
  rw [moduleStatuses_iff rt reports _ registry.listModuleIds_nodup hlength, hkeys,
    forall_reports rt registry env reports h .listed (Shown rt)]

-- A cycle that gets to its result could read all it asked for.
theorem checkModules_ok (result : CycleResult) (h : (checkModules rt registry).result env = .ok result) :
    ∃ reports, (inspectAll rt registry).result env = .ok reports ∧ AllAttributable registry env ∧
      (∀ moduleId ∈ registry.listModuleIds, ∀ proposal, cycleProposal registry env moduleId = some proposal →
        Reportable registry env proposal) ∧
      (∀ moduleId ∈ registry.listModuleIds, (textOf (cycleStatus registry env moduleId .aggregated)).isSome) ∧
      moduleStatuses rt reports = .ok result.moduleStatuses ∧ ClockAware env .started ∧ ClockAware env .finished ∧
      result.aggregate = Status.worst (cycleTexts registry env) := by
  simp only [checkModules, executeIfAny_eq, Prog.result_bind, Prog.result_liftM, bind_eq_ok] at h
  obtain ⟨started, hstarted, reports, hreports, proposals, hproposals, executed, hexecuted, aggregate, haggregate,
    finished, hfinished, statuses, hstatuses, h⟩ := h
  obtain rfl := Except.ok.inj h
  obtain ⟨hall, rfl⟩ := (aggregateReports_eq_ok rt _ _).mp haggregate
  obtain ⟨hattributable, rfl⟩ := (prepareRepairs_eq_ok registry env _).mp hproposals
  have hrepairs := (executeSafeRepairs_isOk_iff registry env).mp ⟨executed, hexecuted⟩
  refine ⟨reports, hreports, hattributable, hrepairs, ?_, hstatuses, ?_, ?_, ?_⟩
  · exact (forall_reports rt registry env reports hreports .aggregated fun status => (textOf status).isSome).mp hall
  · exact ⟨started, (now_eq_ok env .started started).mp hstarted⟩
  · exact ⟨finished, (now_eq_ok env .finished finished).mp hfinished⟩
  · exact congrArg Status.worst (texts_of_reports rt registry env reports hreports)

theorem checkModules_returns (h : Readable rt registry env) (hstarted : ClockAware env .started)
    (hfinished : ClockAware env .finished) :
    ∃ result, (checkModules rt registry).result env = .ok result ∧
      Lists registry.listModuleIds result.moduleStatuses := by
  simp only [checkModules, executeIfAny_eq, Prog.result_bind, Prog.result_liftM, bind_eq_ok]
  obtain ⟨started, hstarted⟩ := hstarted
  obtain ⟨finished, hfinished⟩ := hfinished
  obtain ⟨reports, hreports⟩ := (inspectAll_isOk_iff rt registry env).mpr h.explained
  obtain ⟨executed, hexecuted⟩ := (executeSafeRepairs_isOk_iff registry env).mpr h.repairs
  obtain ⟨statuses, hstatuses, hlists⟩ := (lists_iff rt registry env reports hreports).mpr ⟨h.shown, h.ids⟩
  have hall := (forall_reports rt registry env reports hreports .aggregated fun status => (textOf status).isSome).mpr
    h.statuses
  exact ⟨_, ⟨started, (now_eq_ok env .started started).mpr hstarted, reports, hreports, _,
    (prepareRepairs_eq_ok registry env _).mpr ⟨h.proposals, rfl⟩, executed, hexecuted, _,
    (aggregateReports_eq_ok rt reports _).mpr ⟨hall, rfl⟩, finished,
    (now_eq_ok env .finished finished).mpr hfinished, statuses, hstatuses, rfl⟩, hlists⟩

-- The outcome of a cycle.
def cycleOutcome (scheduler : CycleScheduler) : Except Raised CycleResult :=
  (runCycle rt registry scheduler).result env >>= Prod.fst

theorem cycleOutcome_eq_ok (scheduler : CycleScheduler) (result : CycleResult) :
    cycleOutcome rt registry env scheduler = .ok result ↔
      (checkModules rt registry).result env = .ok result ∧ ClockAware env .lastRun := by
  rw [cycleOutcome, runCycle, Prog.result_bind, Prog.result_attempt, ok_bind]
  cases (checkModules rt registry).result env with
  | error e => exact iff_of_false (by simp) (by simp)
  | ok checked =>
      dsimp only
      rw [Prog.result_bind, Prog.result_attempt, ok_bind]
      cases hnow : (@now Adapter .lastRun).result env with
      | error e =>
          refine iff_of_false (by simp) ?_
          rintro ⟨-, moment, hmoment⟩
          cases hnow.symm.trans ((now_eq_ok env .lastRun moment).mpr hmoment)
      | ok moment =>
          exact ⟨fun h => ⟨h, moment, (now_eq_ok env .lastRun moment).mp hnow⟩, fun h => h.1⟩

end Cycle

section UnknownIsNeverHealthy

variable (rt : Runtime) {Adapter : Type} (registry : ModuleRegistry Adapter) (env : Behaviour Adapter)

-- The adapter of a module returned a report for its own id with a good status.
def ReportedGood (moduleId : PyStr) : Prop :=
  ∃ adapter report text, registry.getAdapter moduleId = some adapter ∧
    env (.inspect moduleId adapter) = .ok report ∧ report.moduleId .returned = .ok (.str moduleId) ∧
    textOf (report.status .returned) = some text ∧ isGood text

-- The cycle returns with one entry for each registered module, and its aggregate is good
-- only if there are modules and each was reported as good.
def UnknownIsNeverHealthy (outcome : Except Raised CycleResult) : Prop :=
  ∃ result, outcome = .ok result ∧ (result.moduleStatuses.map Prod.fst).Nodup ∧
    (∀ key, key ∈ result.moduleStatuses.map Prod.fst ↔ ∃ moduleId ∈ registry.specs, key = .str moduleId) ∧
    (isGood result.aggregate →
      (∃ moduleId, moduleId ∈ registry.specs) ∧ ∀ moduleId ∈ registry.specs, ReportedGood registry env moduleId)

-- The report had no good status when it was returned, and what the aggregate takes from it is
-- no bad level: a text that is no level, or a level that has become good in the meantime.
def Hidden (moduleId : PyStr) : Prop :=
  (∀ text, textOf (cycleStatus registry env moduleId .returned) = some text → ¬ isGood text) ∧
    ∃ text, textOf (cycleStatus registry env moduleId .aggregated) = some text ∧ ¬ isBad text

-- Such a report does not stand beside a good one, unless there is also a bad one.
def NothingHidden : Prop :=
  (∃ moduleId ∈ registry.specs, Hidden registry env moduleId) →
    (∃ text ∈ cycleTexts registry env, isBad text) ∨ ∀ text ∈ cycleTexts registry env, ¬ isGood text

theorem reportedGood_iff (moduleId : PyStr) :
    ReportedGood registry env moduleId ↔
      ∃ text, textOf (cycleStatus registry env moduleId .returned) = some text ∧ isGood text := by
  have hown : ∀ report, ownReport registry env moduleId = some report ↔ _ := ownReport_eq_some registry env moduleId
  unfold cycleStatus
  constructor
  · rintro ⟨adapter, report, text, hadapter, hreport, hid, htext, hgood⟩
    rw [(hown report).mpr ⟨adapter, hadapter, hreport, hid⟩]
    exact ⟨text, htext, hgood⟩
  · rintro ⟨text, htext, hgood⟩
    cases hreport : ownReport registry env moduleId with
    | none =>
        rw [hreport] at htext
        obtain rfl := Option.some.inj htext
        exact absurd hgood unknown_not_good
    | some report =>
        rw [hreport] at htext
        obtain ⟨adapter, hadapter, hinspect, hid⟩ := (hown report).mp hreport
        exact ⟨adapter, report, text, hadapter, hinspect, hid, htext, hgood⟩

theorem mem_cycleTexts (text : PyStr) :
    text ∈ cycleTexts registry env ↔
      ∃ moduleId ∈ registry.specs, textOf (cycleStatus registry env moduleId .aggregated) = some text := by
  simp only [cycleTexts, List.mem_filterMap, registry.mem_listModuleIds]

theorem lists_specs_iff (entries : List (PyData × PyStr)) :
    Lists registry.listModuleIds entries ↔ (entries.map Prod.fst).Nodup ∧
      ∀ key, key ∈ entries.map Prod.fst ↔ ∃ moduleId ∈ registry.specs, key = .str moduleId := by
  simp only [Lists, registry.mem_listModuleIds]

-- UNKNOWN is never healthy exactly when the clock is aware of its time zone, the cycle can
-- read what the adapters return, and no report hides behind a good one.
theorem unknownIsNeverHealthy_iff (scheduler : CycleScheduler) :
    UnknownIsNeverHealthy registry env (cycleOutcome rt registry env scheduler) ↔
      (∀ reading, ClockAware env reading) ∧ Readable rt registry env ∧ NothingHidden registry env := by
  constructor
  · rintro ⟨result, hresult, hnodup, hkeys, haggregate⟩
    obtain ⟨hchecked, hlast⟩ := (cycleOutcome_eq_ok rt registry env scheduler result).mp hresult
    obtain ⟨reports, hreports, hattributable, hrepairs, hstatuses, hentries, hstarted, hfinished, hworst⟩ :=
      checkModules_ok rt registry env result hchecked
    have hclock : ∀ reading, ClockAware env reading := by
      intro reading
      cases reading with
      | started => exact hstarted
      | finished => exact hfinished
      | lastRun => exact hlast
    have hlists := (lists_specs_iff registry result.moduleStatuses).mpr ⟨hnodup, hkeys⟩
    obtain ⟨hshown, hids⟩ := (lists_iff rt registry env reports hreports).mp ⟨_, hentries, hlists⟩
    have hexplained := (inspectAll_isOk_iff rt registry env).mp ⟨reports, hreports⟩
    refine ⟨hclock, ⟨hexplained, hattributable, hrepairs, hstatuses, hshown, hids⟩, ?_⟩
    rintro ⟨moduleId, hmodule, hnot, -⟩
    by_contra hhidden
    rw [not_or, not_exists, not_forall] at hhidden
    obtain ⟨hbad, good, hgood⟩ := hhidden
    rw [Classical.not_imp, not_not] at hgood
    have hworstGood : isGood result.aggregate := by
      rw [hworst, worst_good_iff]
      exact ⟨fun text htext hbadText => hbad text ⟨htext, hbadText⟩, good, hgood.1, hgood.2⟩
    obtain ⟨-, hall⟩ := haggregate hworstGood
    obtain ⟨text, htext, hgoodText⟩ := (reportedGood_iff registry env moduleId).mp (hall moduleId hmodule)
    exact hnot text htext hgoodText
  · rintro ⟨hclock, hreadable, hhidden⟩
    obtain ⟨result, hchecked, hlists⟩ :=
      checkModules_returns rt registry env hreadable (hclock .started) (hclock .finished)
    obtain ⟨-, -, -, -, -, -, -, -, hworst⟩ := checkModules_ok rt registry env result hchecked
    obtain ⟨hnodup, hkeys⟩ := (lists_specs_iff registry result.moduleStatuses).mp hlists
    have houtcome := (cycleOutcome_eq_ok rt registry env scheduler result).mpr ⟨hchecked, hclock .lastRun⟩
    refine ⟨result, houtcome, hnodup, hkeys, fun hgood => ?_⟩
    rw [hworst, worst_good_iff] at hgood
    obtain ⟨hbad, good, hmem, hgood⟩ := hgood
    refine ⟨?_, fun moduleId hmodule => ?_⟩
    · obtain ⟨moduleId, hmodule, -⟩ := (mem_cycleTexts registry env good).mp hmem
      exact ⟨moduleId, hmodule⟩
    · obtain ⟨text, htext⟩ := Option.isSome_iff_exists.mp
        (hreadable.statuses moduleId ((registry.mem_listModuleIds moduleId).mpr hmodule))
      have hmemText := (mem_cycleTexts registry env text).mpr ⟨moduleId, hmodule, htext⟩
      refine (reportedGood_iff registry env moduleId).mpr ?_
      by_contra hnot
      have hnotGood : ∀ earlier, textOf (cycleStatus registry env moduleId .returned) = some earlier →
          ¬ isGood earlier := fun earlier hearlier hgoodEarlier => hnot ⟨earlier, hearlier, hgoodEarlier⟩
      rcases hhidden ⟨moduleId, hmodule, hnotGood, text, htext, hbad text hmemText⟩ with
        ⟨bad, hbadMem, hbadText⟩ | hnone
      · exact hbad bad hbadMem hbadText
      · exact hnone good hmem hgood

end UnknownIsNeverHealthy

section Sample

def sampleRuntime : Runtime := ⟨fun _ => zeroDigest, fun _ => true, 1000⟩

def sampleSpec (moduleId : PyStr) : ModuleSpec := ⟨moduleId, py "0.1.0", [py "read_module_status"]⟩

-- Two modules with adapters.
def sampleRegistry : ModuleRegistry Unit where
  allowedPermissions := defaultAllowedPermissions
  specs := ((∅ : AList fun _ : PyStr => ModuleSpec).insert (py "m1") (sampleSpec (py "m1"))).insert (py "m2")
    (sampleSpec (py "m2"))
  adapters := ((∅ : AList fun _ : PyStr => Option Unit).insert (py "m1") (some ())).insert (py "m2") (some ())
  paired := by simp only [AList.mem_insert, AList.notMem_empty, implies_true]

-- The first module reports HEALTHY, and the second one a status that is no level.
def sampleEnv : Behaviour Unit
  | .now _ => .ok ⟨true, py "2026-11-06T09:00:00+00:00"⟩
  | .inspect moduleId _ => .ok
      ⟨fun _ => .ok (.str moduleId),
        fun _ => .ok (if moduleId = py "m1" then .member .healthy else .value (.str (py "BROKEN")))⟩
  | .proposeRepair _ _ => .ok .none
  | .execute _ _ _ => .ok (.bool true)

theorem sample_texts : cycleTexts sampleRegistry sampleEnv = [py "HEALTHY", py "BROKEN"] := by
  decide +kernel

theorem unexpected_status_is_hidden :
    ((ModuleRegistry.init defaultAllowedPermissions).register (sampleSpec (py "m1")) (some ()) >>= fun registry =>
        registry.register (sampleSpec (py "m2")) (some ())) = .ok sampleRegistry ∧
      isGood (Status.worst (cycleTexts sampleRegistry sampleEnv)) ∧
      ¬ UnknownIsNeverHealthy sampleRegistry sampleEnv
        (cycleOutcome sampleRuntime sampleRegistry sampleEnv ⟨[], none⟩) := by
  have hgood : isGood (Status.worst (cycleTexts sampleRegistry sampleEnv)) := by
    rw [sample_texts]
    decide +kernel
  refine ⟨by rfl, hgood, ?_⟩
  rintro ⟨result, hresult, -, -, haggregate⟩
  obtain ⟨hchecked, -⟩ := (cycleOutcome_eq_ok _ _ _ _ result).mp hresult
  obtain ⟨-, -, -, -, -, -, -, -, hworst⟩ := checkModules_ok _ _ _ result hchecked
  have hmodule : py "m2" ∈ sampleRegistry.specs := by simp [sampleRegistry]
  obtain ⟨text, htext, hgoodText⟩ := (reportedGood_iff _ _ _).mp ((haggregate (hworst ▸ hgood)).2 _ hmodule)
  have hbroken : textOf (cycleStatus sampleRegistry sampleEnv (py "m2") .returned) = some (py "BROKEN") := by
    decide +kernel
  obtain rfl := Option.some.inj (hbroken.symm.trans htext)
  have hnot : ¬ isGood (py "BROKEN") := by decide +kernel
  exact hnot hgoodText

end Sample

end V91Core.Agent
