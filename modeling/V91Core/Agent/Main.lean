import V91Core.Agent.Healthy
import V91Core.Agent.Standard
import V91Core.Python.Glob

namespace V91Core.Agent

open V91Core.Python V91Core.Effect

section Program

variable (rt : Runtime) {Adapter : Type}

-- The files that `*.json` finds in the directory but for the examples, in order.
def configPaths (view : PathView) (configDir : PyStr) : List PyStr :=
  let paths := (view.glob (joinPath configDir (py "*.json"))).insertionSort fun a b => strLe a b = true
  paths.filter fun path => !decide (py ".example.json" <:+ path)

-- Without wildcards in the name of the directory these are its files but the hidden ones.
theorem mem_configPaths (view : PathView) (configDir path : PyStr) (hdir : configDir ≠ [])
    (hlast : configDir.getLast? ≠ some (cp '/')) (hplain : PathView.hasMagic configDir = false) :
    path ∈ configPaths view configDir ↔ ∃ entry ∈ view.scandir configDir, PathView.isHidden entry.1 = false ∧
      py ".json" <:+ entry.1 ∧ path = joinPath configDir entry.1 ∧ ¬ py ".example.json" <:+ path := by
  have hslash : (py ".json").all (· ≠ cp '/') = true := by decide +kernel
  have hglob := view.glob_plain configDir (py ".json") hdir hlast hplain (by decide +kernel)
    (fun c hc => of_decide_eq_true (List.all_eq_true.mp hslash c hc)) path
  have hpattern : py "*.json" = cp '*' :: py ".json" := by decide +kernel
  rw [configPaths, hpattern, List.mem_filter, List.mem_insertionSort, hglob, Bool.not_eq_true', decide_eq_false_iff_not]
  constructor
  · rintro ⟨⟨entry, hentry, hshown, hends, hpath⟩, hexample⟩
    exact ⟨entry, hentry, hshown, hends, hpath, hexample⟩
  · rintro ⟨entry, hentry, hshown, hends, hpath, hexample⟩
    exact ⟨⟨entry, hentry, hshown, hends, hpath⟩, hexample⟩

-- With wildcards it stands for other directories.
example : configPaths ⟨fun path => if path = py "." then [(py "conf1", true), (py "conf[1]", true)]
    else [(py "a.json", false)], fun _ => true, fun _ => true⟩ (py "conf[1]") = [py "conf1/a.json"] := by
  decide +kernel

def loadConfig (read : PyStr → Except PyExc PyStr) (path : PyStr) : Except PyExc ModuleStandard.ModuleSpec := do
  let text ← read path
  let data ← loadsText rt text
  ModuleStandard.loadModuleSpec data

-- No module gets an adapter.
def buildRegistryFromConfig (view : PathView) (read : PyStr → Except PyExc PyStr) (configDir : PyStr) :
    Except PyExc (ModuleRegistry Adapter) :=
  (configPaths view configDir).foldlM (fun registry path => do
    let spec ← loadConfig rt read path
    registry.register spec.registered none) (ModuleRegistry.init defaultAllowedPermissions)

def cycleFrom (registry : ModuleRegistry Adapter) (env : Behaviour Adapter) (scheduler : CycleScheduler) :
    Except Raised (CycleResult × CycleScheduler) := do
  let (outcome, scheduler) ← (runCycle rt registry scheduler).result env
  let result ← outcome
  return (result, scheduler)

-- The first `n + 1` cycles, one after the other: the result of the last one and the
-- scheduler after it.
def runCycles (registry : ModuleRegistry Adapter) (env : Nat → Behaviour Adapter) :
    Nat → Except Raised (CycleResult × CycleScheduler)
  | 0 => cycleFrom rt registry (env 0) ⟨[], none⟩
  | n + 1 => do
      let (_, scheduler) ← runCycles registry env n
      cycleFrom rt registry (env (n + 1)) scheduler

structure RunResult where
  aggregate : PyStr
  modules : List (PyData × PyStr)
  proposals : Nat
  executed : List (PyData × PyStr)
  startedAt : PyStr
  finishedAt : PyStr

def runOnce (registry : ModuleRegistry Adapter) (env : Nat → Behaviour Adapter) (maxCycles interval : Int) :
    Except Raised RunResult := do
  if maxCycles < 1 then .error (.of (.valueError (py "max_cycles muss >= 1 sein")))
  else if interval < 1 then .error (.of (.valueError (py "interval_seconds muss eine positive Ganzzahl sein")))
  else
    let (last, _) ← runCycles rt registry env (maxCycles.toNat - 1)
    return ⟨last.aggregate, last.moduleStatuses, last.proposals, last.executed, last.startedAt, last.finishedAt⟩

-- The arguments once they are parsed.
structure Args where
  configDir : PyStr
  interval : Int
  maxCycles : Int

-- What the program finds: the directories, the files, and how the clock answers in each cycle.
structure Host (Adapter : Type) where
  paths : PathView
  read : PyStr → Except PyExc PyStr
  cycles : Nat → Behaviour Adapter

-- What the printed object says. Nothing is printed for an exception without a text.
inductive Printed where
  | result (result : RunResult)
  | noDirectory (configDir : PyStr)
  | failed (error : PyStr)
  | nothing

-- The exit code and what is printed.
def main (args : Args) (host : Host Adapter) : Nat × Printed :=
  if !host.paths.isDir args.configDir then (1, .noDirectory args.configDir)
  else
    let outcome := do
      let registry : ModuleRegistry Adapter ← plain (buildRegistryFromConfig rt host.paths host.read args.configDir)
      runOnce rt registry host.cycles args.maxCycles args.interval
    match outcome with
    | .ok result => (if result.aggregate = py "FAILED" then 1 else 0, .result result)
    | .error e =>
        match e.text with
        | .ok text => (1, .failed text)
        | .error _ => (1, .nothing)

end Program

section Registering

variable {Adapter : Type}

-- No module has an adapter.
def Bare (registry : ModuleRegistry Adapter) : Prop := ∀ moduleId, registry.getAdapter moduleId = none

def registerAll (registry : ModuleRegistry Adapter) (specs : List ModuleSpec) : Except PyExc (ModuleRegistry Adapter) :=
  specs.foldlM (fun registry spec => registry.register spec none) registry

theorem register_isOk_iff (registry : ModuleRegistry Adapter) (spec : ModuleSpec) (adapter : Option Adapter) :
    (∃ next, registry.register spec adapter = .ok next) ↔
      spec.moduleId ∉ registry.specs ∧ ∀ permission ∈ spec.permissions, permission ∈ registry.allowedPermissions := by
  unfold ModuleRegistry.register
  by_cases hknown : spec.moduleId ∈ registry.specs
  · rw [if_pos hknown]
    exact iff_of_false (by simp) fun h => h.1 hknown
  by_cases hdenied : ∃ permission ∈ spec.permissions, permission ∉ registry.allowedPermissions
  · rw [if_neg hknown, if_pos hdenied]
    obtain ⟨permission, hmem, hnot⟩ := hdenied
    exact iff_of_false (by simp) fun h => hnot (h.2 permission hmem)
  · rw [if_neg hknown, if_neg hdenied]
    refine iff_of_true ⟨_, rfl⟩ ⟨hknown, fun permission hmem => ?_⟩
    by_contra hnot
    exact hdenied ⟨permission, hmem, hnot⟩

theorem register_keys (registry next : ModuleRegistry Adapter) (spec : ModuleSpec) (adapter : Option Adapter)
    (h : registry.register spec adapter = .ok next) :
    next.allowedPermissions = registry.allowedPermissions ∧
      ∀ moduleId, moduleId ∈ next.specs ↔ moduleId = spec.moduleId ∨ moduleId ∈ registry.specs := by
  unfold ModuleRegistry.register at h
  split at h
  · cases h
  · split at h
    · cases h
    · obtain rfl := Except.ok.inj h
      exact ⟨rfl, fun moduleId => AList.mem_insert _⟩

theorem Bare.register {registry next : ModuleRegistry Adapter} (hbare : Bare registry) (spec : ModuleSpec)
    (h : registry.register spec none = .ok next) : Bare next := by
  obtain ⟨-, -, hadapter, hothers⟩ := registry.register_eq_ok next spec none h
  intro moduleId
  by_cases hmodule : moduleId = spec.moduleId
  · exact hmodule ▸ hadapter
  · rw [(hothers moduleId hmodule).2]
    exact hbare moduleId

-- The modules may be registered together.
structure Admissible (registry : ModuleRegistry Adapter) (specs : List ModuleSpec) : Prop where
  fresh : ∀ spec ∈ specs, spec.moduleId ∉ registry.specs
  distinct : (specs.map ModuleSpec.moduleId).Nodup
  permitted : ∀ spec ∈ specs, ∀ permission ∈ spec.permissions, permission ∈ registry.allowedPermissions

theorem admissible_cons (registry next : ModuleRegistry Adapter) (spec : ModuleSpec) (specs : List ModuleSpec)
    (h : registry.register spec none = .ok next) : Admissible registry (spec :: specs) ↔ Admissible next specs := by
  obtain ⟨hnew, hpermitted⟩ := (register_isOk_iff registry spec none).mp ⟨next, h⟩
  obtain ⟨hallowed, hkeys⟩ := register_keys registry next spec none h
  constructor
  · rintro ⟨hfresh, hdistinct, hall⟩
    rw [List.map_cons, List.nodup_cons] at hdistinct
    refine ⟨fun other hother => ?_, hdistinct.2, fun other hother => ?_⟩
    · rw [hkeys, not_or]
      refine ⟨fun hsame => hdistinct.1 ?_, hfresh other (List.mem_cons_of_mem _ hother)⟩
      exact hsame ▸ List.mem_map_of_mem hother
    · rw [hallowed]
      exact hall other (List.mem_cons_of_mem _ hother)
  · rintro ⟨hfresh, hdistinct, hall⟩
    simp only [hkeys, not_or] at hfresh
    rw [hallowed] at hall
    refine ⟨?_, ?_, ?_⟩
    · exact List.forall_mem_cons.mpr ⟨hnew, fun other hother => (hfresh other hother).2⟩
    · refine List.nodup_cons.mpr ⟨fun hmem => ?_, hdistinct⟩
      obtain ⟨other, hother, hsame⟩ := List.mem_map.mp hmem
      exact (hfresh other hother).1 hsame
    · exact List.forall_mem_cons.mpr ⟨hpermitted, hall⟩

theorem registerAll_isOk_iff (registry : ModuleRegistry Adapter) (specs : List ModuleSpec) :
    (∃ next, registerAll registry specs = .ok next) ↔ Admissible registry specs := by
  induction specs generalizing registry with
  | nil => exact iff_of_true ⟨registry, rfl⟩ ⟨by simp, List.nodup_nil, by simp⟩
  | cons spec specs ih =>
      rw [registerAll, List.foldlM_cons]
      cases hregister : registry.register spec none with
      | error e =>
          refine iff_of_false (by simp) fun h => ?_
          obtain ⟨next, hnext⟩ := (register_isOk_iff registry spec none).mpr
            ⟨h.fresh spec List.mem_cons_self, h.permitted spec List.mem_cons_self⟩
          rw [hregister] at hnext
          cases hnext
      | ok next =>
          rw [admissible_cons registry next spec specs hregister]
          exact ih next

theorem registerAll_eq_ok (registry next : ModuleRegistry Adapter) (specs : List ModuleSpec) (hbare : Bare registry)
    (h : registerAll registry specs = .ok next) : Bare next ∧
      ∀ moduleId, moduleId ∈ next.specs ↔ moduleId ∈ specs.map ModuleSpec.moduleId ∨ moduleId ∈ registry.specs := by
  induction specs generalizing registry with
  | nil =>
      obtain rfl := Except.ok.inj h
      exact ⟨hbare, by simp⟩
  | cons spec specs ih =>
      rw [registerAll, List.foldlM_cons] at h
      obtain ⟨mid, hmid, h⟩ := (bind_eq_ok _ _ _).mp h
      obtain ⟨hnext, hkeys⟩ := ih mid (hbare.register spec hmid) h
      refine ⟨hnext, fun moduleId => ?_⟩
      rw [hkeys, (register_keys registry mid spec none hmid).2, List.map_cons, List.mem_cons]
      tauto

end Registering

section Cycles

variable (rt : Runtime) {Adapter : Type} {registry : ModuleRegistry Adapter} (hbare : Bare registry)
  (env : Behaviour Adapter)

theorem worst_unknown (values : List PyStr) (h : ∀ text ∈ values, text = Status.unknown.value) :
    Status.worst values = Status.unknown.value := by
  cases values with
  | nil => decide +kernel
  | cons text values =>
      have hmem : ∀ level, level ∈ text :: values ↔ level = Status.unknown.value := by
        intro level
        refine ⟨h level, fun hlevel => ?_⟩
        rw [hlevel, ← h text List.mem_cons_self]
        exact List.mem_cons_self
      rw [Status.worst]
      simp only [hmem]
      decide +kernel

-- What a cycle over modules without adapters comes to.
def unknownResult (registry : ModuleRegistry Adapter) (started finished : Moment) : CycleResult where
  startedAt := started.isoformat
  finishedAt := finished.isoformat
  aggregate := Status.unknown.value
  moduleStatuses := registry.listModuleIds.map fun moduleId => (.str moduleId, Status.unknown.value)
  proposals := 0
  executed := []

theorem moduleStatuses_unknown (reports : List Report) (ids : List PyStr) (hids : ids.Nodup)
    (hkeys : reports.map (Report.moduleId · .listed) = ids.map fun moduleId => .ok (.str moduleId))
    (hstatus : ∀ report ∈ reports, report.status .listed = .ok (.member .unknown)) :
    moduleStatuses rt reports = .ok (ids.map fun moduleId => (.str moduleId, Status.unknown.value)) := by
  have htexts : reports.map (Report.statusText rt) = ids.map fun _ => .ok Status.unknown.value := by
    have hlength : reports.length = ids.length := by
      have hboth := congrArg List.length hkeys
      rwa [List.length_map, List.length_map] at hboth
    calc reports.map (Report.statusText rt)
        = reports.map fun _ => .ok Status.unknown.value := by
          refine List.map_congr_left fun report hreport => ?_
          rw [Report.statusText, hstatus report hreport]
          rfl
      _ = ids.map fun _ => .ok Status.unknown.value := by rw [List.map_const', List.map_const', hlength]
  have hitems : Json.sequence (reports.map (Report.entry rt)) =
      .ok (ids.map fun moduleId => (.str moduleId, Status.unknown.value)) := by
    refine (sequence_entries rt reports _).mpr ⟨?_, ?_, ?_⟩
    · rw [hkeys, List.map_map]
      rfl
    · rw [htexts, List.map_map]
      rfl
    · intro item hitem
      obtain ⟨moduleId, -, rfl⟩ := List.mem_map.mp hitem
      rfl
  have hfst : (ids.map fun moduleId => (moduleId, Status.unknown.value)).map Prod.fst = ids := by
    rw [List.map_map]
    exact List.map_id ids
  have hfold := foldl_setEntry (ids.map fun moduleId => (moduleId, Status.unknown.value)) []
    (hfst.symm ▸ hids) (by simp)
  rw [List.map_map, List.nil_append] at hfold
  rw [moduleStatuses, hitems, ok_bind]
  exact congrArg Except.ok hfold

include hbare

theorem ownReport_bare (moduleId : PyStr) : ownReport registry env moduleId = none := by
  rw [ownReport, hbare moduleId]
  rfl

theorem cycleStatus_bare (moduleId : PyStr) (look : Look) :
    cycleStatus registry env moduleId look = .ok (.member .unknown) := by
  rw [cycleStatus, ownReport_bare hbare env]

theorem cycleProposals_bare : registry.listModuleIds.filterMap (cycleProposal registry env) = [] := by
  refine List.filterMap_eq_nil_iff.mpr fun moduleId _ => ?_
  rw [cycleProposal, hbare moduleId]
  rfl

theorem checkModules_bare (result : CycleResult) : (checkModules rt registry).result env = .ok result ↔
    ∃ started finished, (env (.now .started) = .ok started ∧ started.aware = true) ∧
      (env (.now .finished) = .ok finished ∧ finished.aware = true) ∧
        result = unknownResult registry started finished := by
  have hattributable : AllAttributable registry env := by
    intro moduleId adapter proposal hadapter
    rw [hbare moduleId] at hadapter
    cases hadapter
  have hexplained : Explained registry env := by
    intro moduleId adapter e hadapter
    rw [hbare moduleId] at hadapter
    cases hadapter
  obtain ⟨reports, hreports⟩ := (inspectAll_isOk_iff rt registry env).mpr hexplained
  have hunknown : ∀ look, ∀ report ∈ reports, report.status look = .ok (.member .unknown) := fun look =>
    (forall_reports rt registry env reports hreports look (· = .ok (.member .unknown))).mpr fun moduleId _ =>
      cycleStatus_bare hbare env moduleId look
  have hkeys : reports.map (Report.moduleId · .listed) = registry.listModuleIds.map fun moduleId =>
      .ok (.str moduleId) := by
    rw [(inspectAll_ok rt registry env reports hreports).1]
    refine List.map_congr_left fun moduleId _ => ?_
    rw [cycleKey, ownReport_bare hbare env]
  have hstatuses := moduleStatuses_unknown rt reports _ registry.listModuleIds_nodup hkeys (hunknown .listed)
  have haggregate : aggregateReports rt reports = .ok Status.unknown.value := by
    refine (aggregateReports_eq_ok rt reports _).mpr ⟨fun report hreport => ?_,
      (worst_unknown _ fun text htext => ?_).symm⟩
    · rw [hunknown .aggregated report hreport]
      rfl
    · obtain ⟨report, hreport, htext⟩ := List.mem_filterMap.mp htext
      rw [hunknown .aggregated report hreport] at htext
      exact (Option.some.inj htext).symm
  have hproposals := (prepareRepairs_eq_ok registry env _).mpr ⟨hattributable, rfl⟩
  rw [cycleProposals_bare hbare env] at hproposals
  have hexecuted : (executeIfAny registry []).result env = .ok [] := rfl
  simp only [checkModules, Prog.result_bind, Prog.result_liftM, hreports, hproposals, hexecuted, haggregate, hstatuses,
    ok_bind, bind_eq_ok, now_eq_ok]
  constructor
  · rintro ⟨started, hstarted, finished, hfinished, h⟩
    exact ⟨started, finished, hstarted, hfinished, (Except.ok.inj h).symm⟩
  · rintro ⟨started, finished, hstarted, hfinished, rfl⟩
    exact ⟨started, hstarted, finished, hfinished, rfl⟩

-- A cycle with its last reading of the clock.
def BareCycle (registry : ModuleRegistry Adapter) (env : Behaviour Adapter) (result : CycleResult) : Prop :=
  ∃ started finished, (env (.now .started) = .ok started ∧ started.aware = true) ∧
    (env (.now .finished) = .ok finished ∧ finished.aware = true) ∧ ClockAware env .lastRun ∧
      result = unknownResult registry started finished

theorem cycleFrom_bare (scheduler : CycleScheduler) (result : CycleResult) :
    (∃ next, cycleFrom rt registry env scheduler = .ok (result, next)) ↔ BareCycle registry env result := by
  have houtcome : (∃ next, cycleFrom rt registry env scheduler = .ok (result, next)) ↔
      cycleOutcome rt registry env scheduler = .ok result := by
    simp only [cycleFrom, cycleOutcome, bind_eq_ok]
    constructor
    · rintro ⟨next, ⟨outcome, mid⟩, hrun, result', hresult, h⟩
      obtain ⟨rfl, -⟩ := Prod.mk.inj (Except.ok.inj h)
      exact ⟨_, hrun, hresult⟩
    · rintro ⟨⟨outcome, next⟩, hrun, hresult⟩
      exact ⟨next, _, hrun, result, hresult, rfl⟩
  rw [houtcome, cycleOutcome_eq_ok, checkModules_bare rt hbare]
  constructor
  · rintro ⟨⟨started, finished, hstarted, hfinished, h⟩, hlast⟩
    exact ⟨started, finished, hstarted, hfinished, hlast, h⟩
  · rintro ⟨started, finished, hstarted, hfinished, hlast, h⟩
    exact ⟨⟨started, finished, hstarted, hfinished, h⟩, hlast⟩

-- The cycles return when the clock is aware of its time zone in each of them.
theorem runCycles_bare (env : Nat → Behaviour Adapter) (n : Nat) (result : CycleResult) :
    (∃ next, runCycles rt registry env n = .ok (result, next)) ↔
      (∀ m < n, ∃ earlier, BareCycle registry (env m) earlier) ∧ BareCycle registry (env n) result := by
  induction n generalizing result with
  | zero =>
      rw [runCycles, cycleFrom_bare rt hbare]
      simp
  | succ n ih =>
      simp only [runCycles, bind_eq_ok]
      constructor
      · rintro ⟨next, ⟨earlier, scheduler⟩, hrun, hcycle⟩
        obtain ⟨hbefore, hlast⟩ := (ih earlier).mp ⟨scheduler, hrun⟩
        refine ⟨fun m hm => ?_, (cycleFrom_bare rt hbare (env (n + 1)) scheduler result).mp ⟨next, hcycle⟩⟩
        by_cases hmn : m = n
        · exact hmn ▸ ⟨earlier, hlast⟩
        · exact hbefore m (by omega)
      · rintro ⟨hall, hcycle⟩
        obtain ⟨earlier, hlast⟩ := hall n (Nat.lt_succ_self n)
        obtain ⟨scheduler, hrun⟩ := (ih earlier).mpr ⟨fun m hm => hall m (by omega), hlast⟩
        obtain ⟨next, hnext⟩ := (cycleFrom_bare rt hbare (env (n + 1)) scheduler result).mpr hcycle
        exact ⟨next, _, hrun, hnext⟩

omit hbare in
theorem bareCycle_iff : (∃ result, BareCycle registry env result) ↔ ∀ reading, ClockAware env reading := by
  constructor
  · rintro ⟨result, started, finished, hstarted, hfinished, hlast, -⟩ reading
    cases reading with
    | started => exact ⟨started, hstarted⟩
    | finished => exact ⟨finished, hfinished⟩
    | lastRun => exact hlast
  · intro h
    obtain ⟨started, hstarted⟩ := h .started
    obtain ⟨finished, hfinished⟩ := h .finished
    exact ⟨_, started, finished, hstarted, hfinished, h .lastRun, rfl⟩

-- What `run_once` returns for modules without adapters.
def unknownRun (moduleIds : List PyStr) (started finished : Moment) : RunResult where
  aggregate := Status.unknown.value
  modules := moduleIds.map fun moduleId => (.str moduleId, Status.unknown.value)
  proposals := 0
  executed := []
  startedAt := started.isoformat
  finishedAt := finished.isoformat

theorem runOnce_bare (env : Nat → Behaviour Adapter) (maxCycles interval : Int) (result : RunResult) :
    runOnce rt registry env maxCycles interval = .ok result ↔
      1 ≤ maxCycles ∧ 1 ≤ interval ∧ (∀ n < maxCycles.toNat, ∀ reading, ClockAware (env n) reading) ∧
        ∃ started finished, env (maxCycles.toNat - 1) (.now .started) = .ok started ∧
          env (maxCycles.toNat - 1) (.now .finished) = .ok finished ∧
            result = unknownRun registry.listModuleIds started finished := by
  unfold runOnce
  by_cases hcycles : maxCycles < 1
  · rw [if_pos hcycles]
    exact iff_of_false (by simp) fun h => absurd h.1 (by omega)
  by_cases hinterval : interval < 1
  · rw [if_neg hcycles, if_pos hinterval]
    exact iff_of_false (by simp) fun h => absurd h.2.1 (by omega)
  rw [if_neg hcycles, if_neg hinterval, bind_eq_ok]
  have hrun := runCycles_bare rt hbare env (maxCycles.toNat - 1)
  constructor
  · rintro ⟨⟨last, scheduler⟩, hlast, h⟩
    obtain rfl := Except.ok.inj h
    obtain ⟨hbefore, hcycle⟩ := (hrun last).mp ⟨scheduler, hlast⟩
    refine ⟨by omega, by omega, fun n hn => ?_, ?_⟩
    · have hearlier : ∃ earlier, BareCycle registry (env n) earlier := by
        by_cases hlastn : n = maxCycles.toNat - 1
        · exact hlastn ▸ ⟨last, hcycle⟩
        · exact hbefore n (by omega)
      exact (bareCycle_iff (env n)).mp hearlier
    · obtain ⟨started, finished, hstarted, hfinished, -, rfl⟩ := hcycle
      exact ⟨started, finished, hstarted.1, hfinished.1, rfl⟩
  · rintro ⟨-, -, hclock, started, finished, hstarted, hfinished, rfl⟩
    have hcycle : ∀ n < maxCycles.toNat, ∃ earlier, BareCycle registry (env n) earlier := fun n hn =>
      (bareCycle_iff (env n)).mpr (hclock n hn)
    obtain ⟨last, hlast⟩ := hcycle (maxCycles.toNat - 1) (by omega)
    obtain ⟨scheduler, hscheduler⟩ := (hrun last).mpr ⟨fun m hm => hcycle m (by omega), hlast⟩
    refine ⟨_, hscheduler, ?_⟩
    obtain ⟨started', finished', hstarted', hfinished', -, rfl⟩ := hlast
    obtain rfl := Except.ok.inj (hstarted.symm.trans hstarted'.1)
    obtain rfl := Except.ok.inj (hfinished.symm.trans hfinished'.1)
    rfl

end Cycles

section Outcome

variable (rt : Runtime) {Adapter : Type} (args : Args) (host : Host Adapter)

-- What it takes for a run of the program to go through with these modules.
structure Runnable (specs : List ModuleStandard.ModuleSpec) : Prop where
  dir : host.paths.isDir args.configDir = true
  cycles : 1 ≤ args.maxCycles
  interval : 1 ≤ args.interval
  loaded : List.Forall₂ (fun path spec => loadConfig rt host.read path = .ok spec)
    (configPaths host.paths args.configDir) specs
  distinct : (specs.map fun spec => spec.moduleId.val).Nodup
  permitted : ∀ spec ∈ specs, ∀ permission ∈ spec.permissions, permission.val = py "read_module_status"
  clock : ∀ n < args.maxCycles.toNat, ∀ reading, ClockAware (host.cycles n) reading

theorem foldlM_load (paths : List PyStr) (registry next : ModuleRegistry Adapter) :
    (paths.foldlM (fun registry path => do
      let spec ← loadConfig rt host.read path
      registry.register spec.registered none) registry) = .ok next ↔
      ∃ specs, List.Forall₂ (fun path spec => loadConfig rt host.read path = .ok spec) paths specs ∧
        registerAll registry (specs.map ModuleStandard.ModuleSpec.registered) = .ok next := by
  induction paths generalizing registry with
  | nil =>
      constructor
      · intro h
        exact ⟨[], .nil, h⟩
      · rintro ⟨specs, hspecs, h⟩
        cases hspecs
        exact h
  | cons path paths ih =>
      rw [List.foldlM_cons]
      simp only [bind_eq_ok, ih]
      constructor
      · rintro ⟨mid, ⟨spec, hspec, hregister⟩, specs, hspecs, h⟩
        refine ⟨spec :: specs, .cons hspec hspecs, ?_⟩
        rw [List.map_cons, registerAll, List.foldlM_cons, hregister]
        exact h
      · rintro ⟨specs, hspecs, h⟩
        cases hspecs with
        | cons hspec hspecs =>
            rw [List.map_cons, registerAll, List.foldlM_cons] at h
            obtain ⟨mid, hregister, h⟩ := (bind_eq_ok _ _ _).mp h
            exact ⟨mid, ⟨_, hspec, hregister⟩, _, hspecs, h⟩

theorem buildRegistry_eq_ok (next : ModuleRegistry Adapter) :
    buildRegistryFromConfig rt host.paths host.read args.configDir = .ok next ↔
      ∃ specs, List.Forall₂ (fun path spec => loadConfig rt host.read path = .ok spec)
          (configPaths host.paths args.configDir) specs ∧
        registerAll (ModuleRegistry.init defaultAllowedPermissions)
          (specs.map ModuleStandard.ModuleSpec.registered) = .ok next :=
  foldlM_load rt host _ _ next

theorem admissible_init (specs : List ModuleStandard.ModuleSpec) :
    Admissible (ModuleRegistry.init defaultAllowedPermissions : ModuleRegistry Adapter)
        (specs.map ModuleStandard.ModuleSpec.registered) ↔
      (specs.map fun spec => spec.moduleId.val).Nodup ∧
        ∀ spec ∈ specs, ∀ permission ∈ spec.permissions, permission.val = py "read_module_status" := by
  constructor
  · rintro ⟨-, hdistinct, hpermitted⟩
    rw [List.map_map] at hdistinct
    refine ⟨hdistinct, fun spec hspec permission hpermission => ?_⟩
    exact List.mem_singleton.mp (hpermitted _ (List.mem_map_of_mem hspec) _ (List.mem_map_of_mem hpermission))
  · rintro ⟨hdistinct, hpermitted⟩
    refine ⟨fun spec _ => AList.notMem_empty _, by rwa [List.map_map], fun spec hspec permission hpermission => ?_⟩
    obtain ⟨described, hdescribed, rfl⟩ := List.mem_map.mp hspec
    obtain ⟨text, htext, rfl⟩ := List.mem_map.mp hpermission
    exact List.mem_singleton.mpr (hpermitted described hdescribed text htext)

-- The ids of the modules, in order.
def sortedIds (specs : List ModuleStandard.ModuleSpec) : List PyStr :=
  (specs.map fun spec => spec.moduleId.val).insertionSort fun a b => strLe a b = true

theorem listModuleIds_eq (registry : ModuleRegistry Adapter) (specs : List ModuleStandard.ModuleSpec)
    (hdistinct : (specs.map fun spec => spec.moduleId.val).Nodup)
    (h : ∀ moduleId, moduleId ∈ registry.specs ↔ moduleId ∈ specs.map fun spec => spec.moduleId.val) :
    registry.listModuleIds = sortedIds specs := by
  have htotal : Std.Total fun a b : PyStr => strLe a b = true := ⟨strLe_total⟩
  have htrans : IsTrans PyStr fun a b => strLe a b = true := ⟨strLe_trans⟩
  have hperm : registry.specs.keys.Perm (specs.map fun spec => spec.moduleId.val) :=
    (List.perm_ext_iff_of_nodup registry.specs.keys_nodup hdistinct).mpr h
  refine List.Perm.eq_of_pairwise (fun a b _ _ => strLe_antisymm a b) (List.pairwise_insertionSort _ _)
    (List.pairwise_insertionSort _ _) ?_
  exact (List.perm_insertionSort _ _).trans (hperm.trans (List.perm_insertionSort _ _).symm)

theorem init_bare : Bare (ModuleRegistry.init defaultAllowedPermissions : ModuleRegistry Adapter) := fun _ => rfl

-- A register that is built from descriptions.
theorem buildRegistry_bare (next : ModuleRegistry Adapter)
    (h : buildRegistryFromConfig rt host.paths host.read args.configDir = .ok next) :
    ∃ specs, List.Forall₂ (fun path spec => loadConfig rt host.read path = .ok spec)
        (configPaths host.paths args.configDir) specs ∧
      (specs.map fun spec => spec.moduleId.val).Nodup ∧
      (∀ spec ∈ specs, ∀ permission ∈ spec.permissions, permission.val = py "read_module_status") ∧ Bare next := by
  obtain ⟨specs, hloaded, hregister⟩ := (buildRegistry_eq_ok rt args host next).mp h
  obtain ⟨hdistinct, hpermitted⟩ := (admissible_init specs).mp ((registerAll_isOk_iff _ _).mp ⟨next, hregister⟩)
  exact ⟨specs, hloaded, hdistinct, hpermitted, (registerAll_eq_ok _ next _ init_bare hregister).1⟩

theorem buildRegistry_returns (specs : List ModuleStandard.ModuleSpec) (h : Runnable rt args host specs) :
    ∃ next : ModuleRegistry Adapter, buildRegistryFromConfig rt host.paths host.read args.configDir =
      .ok next ∧ Bare next ∧ next.listModuleIds = sortedIds specs := by
  obtain ⟨next, hnext⟩ := (registerAll_isOk_iff _ _).mpr
    ((admissible_init specs).mpr ⟨h.distinct, h.permitted⟩)
  obtain ⟨hbare, hkeys⟩ := registerAll_eq_ok _ next _ init_bare hnext
  refine ⟨next, (buildRegistry_eq_ok rt args host next).mpr ⟨specs, h.loaded, hnext⟩, hbare, ?_⟩
  refine listModuleIds_eq next specs h.distinct fun moduleId => ?_
  rw [hkeys, List.map_map]
  exact or_iff_left (AList.notMem_empty _)

theorem main_raised (e : Raised) (hdir : host.paths.isDir args.configDir = true)
    (h : (do
      let registry : ModuleRegistry Adapter ← plain (buildRegistryFromConfig rt host.paths host.read args.configDir)
      runOnce rt registry host.cycles args.maxCycles args.interval) = .error e) :
    (∃ error, main rt args host = (1, .failed error)) ∨ main rt args host = (1, .nothing) := by
  unfold main
  rw [hdir, h]
  dsimp only
  cases e.text with
  | ok text => exact .inl ⟨text, rfl⟩
  | error e' => exact .inr rfl

end Outcome

end V91Core.Agent
