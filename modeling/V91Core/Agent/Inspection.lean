import V91Core.Agent.Cycle

namespace V91Core.Agent

open V91Core.Python V91Core.Effect

section Inspection

variable (rt : Runtime) {Adapter : Type} (registry : ModuleRegistry Adapter) (env : Behaviour Adapter)

theorem toOption_eq_some (answer : Except ε β) (b : β) : answer.toOption = some b ↔ answer = .ok b := by
  cases answer <;> simp [Except.toOption]

-- The report that the adapter of a module returned for its own id.
def ownReport (moduleId : PyStr) : Option Inspected := do
  let adapter ← registry.getAdapter moduleId
  let report ← (env (.inspect moduleId adapter)).toOption
  let reported ← (report.moduleId .returned).toOption
  if reported.isStr moduleId then some report else none

theorem ownReport_eq_some (moduleId : PyStr) (report : Inspected) :
    ownReport registry env moduleId = some report ↔
      ∃ adapter, registry.getAdapter moduleId = some adapter ∧ env (.inspect moduleId adapter) = .ok report ∧
        report.moduleId .returned = .ok (.str moduleId) := by
  simp only [ownReport, Option.bind_eq_bind, Option.bind_eq_some_iff, toOption_eq_some, Option.ite_none_right_eq_some,
    isStr_iff, Option.some.injEq]
  constructor
  · rintro ⟨adapter, hadapter, _, hreport, _, hid, rfl, rfl⟩
    exact ⟨adapter, hadapter, hreport, hid⟩
  · rintro ⟨adapter, hadapter, hreport, hid⟩
    exact ⟨adapter, hadapter, report, hreport, _, hid, rfl, rfl⟩

-- What a cycle sees at a moment as the status of a module.
def cycleStatus (moduleId : PyStr) (look : Look) : Except Raised StatusValue :=
  match ownReport registry env moduleId with
  | some report => report.status look
  | none => .ok (.member .unknown)

-- The key under which the module's status is listed.
def cycleKey (moduleId : PyStr) : Except Raised PyData :=
  match ownReport registry env moduleId with
  | some report => report.moduleId .listed
  | none => .ok (.str moduleId)

-- What the adapter raises in an inspection.
inductive InspectionRaises (moduleId : PyStr) (adapter : Adapter) (e : Raised) : Prop
  | inspect (h : env (.inspect moduleId adapter) = .error e)
  | returned (report : Inspected) (h : env (.inspect moduleId adapter) = .ok report)
      (hid : report.moduleId .returned = .error e)
  | named (report : Inspected) (reported : PyData) (h : env (.inspect moduleId adapter) = .ok report)
      (hid : report.moduleId .returned = .ok reported) (hother : reported.isStr moduleId = false)
      (hname : report.moduleId .named = .error e)

-- Whatever the inspections raise has a text.
def Explained : Prop :=
  ∀ moduleId adapter e, registry.getAdapter moduleId = some adapter → InspectionRaises env moduleId adapter e →
    e.Printable

theorem readReport_result (moduleId version : PyStr) (adapter : Adapter) :
    (readReport rt moduleId version adapter).result env = (do
      let report ← env (.inspect moduleId adapter)
      let reported ← report.moduleId .returned
      if reported.isStr moduleId then
        return .returned report
      let shown ← report.moduleId .named
      let text ← plain (shown.toStr rt)
      return unknownReport moduleId version (py "Identitaetsabweichung: gemeldet '" ++ text ++ py "'")) := by
  rw [readReport, Prog.result_bind, Prog.result_perform]
  congr 1
  funext report
  rw [Prog.result_bind, Prog.result_liftM]
  congr 1
  funext reported
  split
  · rfl
  · rw [Prog.result_bind, Prog.result_liftM]
    congr 1
    funext shown
    rw [Prog.result_bind, Prog.result_liftM]
    rfl

theorem readReport_raises (moduleId version : PyStr) (adapter : Adapter) (e : Raised)
    (h : InspectionRaises env moduleId adapter e) : (readReport rt moduleId version adapter).result env = .error e := by
  rw [readReport_result]
  cases h with
  | inspect h => rw [h, error_bind]
  | returned report h hid => rw [h, ok_bind, hid, error_bind]
  | named report reported h hid hother hname =>
      rw [h, ok_bind, hid, ok_bind, hother, if_neg Bool.false_ne_true, hname, error_bind]

theorem readReport_cases (moduleId version : PyStr) (adapter : Adapter)
    (hadapter : registry.getAdapter moduleId = some adapter) :
    (∃ report, ownReport registry env moduleId = some report ∧
      (readReport rt moduleId version adapter).result env = .ok (.returned report)) ∨
    ownReport registry env moduleId = none ∧
      ((∃ details, (readReport rt moduleId version adapter).result env =
          .ok (unknownReport moduleId version details)) ∨
        ∃ e, (readReport rt moduleId version adapter).result env = .error e ∧
          (e.Printable ∨ InspectionRaises env moduleId adapter e)) := by
  rw [readReport_result, ownReport, hadapter, Option.bind_eq_bind, Option.bind_some]
  cases hinspect : env (.inspect moduleId adapter) with
  | error e => exact .inr ⟨rfl, .inr ⟨e, rfl, .inr (.inspect hinspect)⟩⟩
  | ok report =>
      rw [ok_bind]
      cases hid : report.moduleId .returned with
      | error e =>
          exact .inr ⟨by simp [Except.toOption, hid], .inr ⟨e, rfl, .inr (.returned report hinspect hid)⟩⟩
      | ok reported =>
          rw [ok_bind]
          cases hown : reported.isStr moduleId with
          | true => exact .inl ⟨report, by simp [Except.toOption, hid, hown], rfl⟩
          | false =>
              refine .inr ⟨by simp [Except.toOption, hid, hown], ?_⟩
              rw [if_neg Bool.false_ne_true]
              cases hname : report.moduleId .named with
              | error e => exact .inr ⟨e, rfl, .inr (.named report reported hinspect hid hown hname)⟩
              | ok shown =>
                  rw [ok_bind]
                  cases shown.toStr rt with
                  | error e => exact .inr ⟨.of e, rfl, .inl (Raised.printable_of e)⟩
                  | ok text => exact .inl ⟨_, rfl⟩

-- The adapter's own report is kept, and whatever else happens is UNKNOWN.
theorem inspectModule_ok (moduleId : PyStr) (report : Report)
    (h : (inspectModule rt registry moduleId).result env = .ok report) :
    report.moduleId .listed = cycleKey registry env moduleId ∧
      ∀ look, report.status look = cycleStatus registry env moduleId look := by
  rw [inspectModule, Prog.result_bind, bind_eq_ok] at h
  obtain ⟨spec, -, h⟩ := h
  unfold cycleKey cycleStatus
  cases hadapter : registry.getAdapter moduleId with
  | none =>
      rw [hadapter] at h
      obtain rfl := Except.ok.inj h
      simp [ownReport, hadapter, unknownReport, Report.moduleId, Report.status]
  | some adapter =>
      rw [hadapter] at h
      dsimp only at h
      rcases readReport_cases rt registry env moduleId spec.version adapter hadapter with
        ⟨own, hown, hread⟩ | ⟨hown, ⟨details, hread⟩ | ⟨e, hread, -⟩⟩
      · rw [Prog.result_catching_ok env _ _ _ hread] at h
        obtain rfl := Except.ok.inj h
        rw [hown]
        exact ⟨rfl, fun _ => rfl⟩
      · rw [Prog.result_catching_ok env _ _ _ hread] at h
        obtain rfl := Except.ok.inj h
        rw [hown]
        exact ⟨rfl, fun _ => rfl⟩
      · rw [Prog.result_catching_error env _ _ e hread, failedReport, Prog.result_bind, bind_eq_ok] at h
        obtain ⟨text, -, h⟩ := h
        obtain rfl := Except.ok.inj h
        rw [hown]
        exact ⟨rfl, fun _ => rfl⟩

theorem inspectModule_isOk_iff (moduleId : PyStr) (h : moduleId ∈ registry.listModuleIds) :
    (∃ report, (inspectModule rt registry moduleId).result env = .ok report) ↔
      ∀ adapter e, registry.getAdapter moduleId = some adapter → InspectionRaises env moduleId adapter e →
        e.Printable := by
  obtain ⟨spec, hspec⟩ := registry.getSpec_of_mem moduleId h
  rw [inspectModule, Prog.result_bind, Prog.result_liftM, hspec, plain_ok, ok_bind]
  cases hadapter : registry.getAdapter moduleId with
  | none => exact iff_of_true ⟨_, rfl⟩ (by simp)
  | some adapter =>
      dsimp only
      have hhandled : ∀ e, (readReport rt moduleId spec.version adapter).result env = .error e →
          ((∃ report, ((readReport rt moduleId spec.version adapter).catching
            (failedReport moduleId spec.version)).result env = .ok report) ↔ e.Printable) := by
        intro e hread
        rw [Prog.result_catching_error env _ _ e hread, failedReport, Prog.result_bind, Prog.result_liftM]
        unfold Raised.Printable
        cases e.text with
        | error e' => exact iff_of_false (by simp) (by simp)
        | ok text => exact iff_of_true ⟨_, rfl⟩ ⟨text, rfl⟩
      constructor
      · rintro hreturns other e hother hraises
        obtain rfl := Option.some.inj hother
        exact (hhandled e (readReport_raises rt env moduleId spec.version adapter e hraises)).mp hreturns
      · intro hexplained
        rcases readReport_cases rt registry env moduleId spec.version adapter hadapter with
          ⟨own, -, hread⟩ | ⟨-, ⟨details, hread⟩ | ⟨e, hread, hprintable | hraises⟩⟩
        · exact ⟨_, Prog.result_catching_ok env _ _ _ hread⟩
        · exact ⟨_, Prog.result_catching_ok env _ _ _ hread⟩
        · exact (hhandled e hread).mpr hprintable
        · exact (hhandled e hread).mpr (hexplained adapter e rfl hraises)

theorem inspectAll_isOk_iff :
    (∃ reports, (inspectAll rt registry).result env = .ok reports) ↔ Explained registry env := by
  rw [inspectAll, Prog.result_each_isOk]
  constructor
  · intro h moduleId adapter e hadapter
    have hmem := registry.mem_of_getAdapter moduleId adapter hadapter
    exact (inspectModule_isOk_iff rt registry env moduleId hmem).mp (h moduleId hmem) adapter e hadapter
  · intro h moduleId hmem
    exact (inspectModule_isOk_iff rt registry env moduleId hmem).mpr (h moduleId)

theorem inspectAll_ok (reports : List Report) (h : (inspectAll rt registry).result env = .ok reports) :
    reports.map (Report.moduleId · .listed) = registry.listModuleIds.map (cycleKey registry env) ∧
      ∀ look, reports.map (Report.status · look) =
        registry.listModuleIds.map fun moduleId => cycleStatus registry env moduleId look := by
  have heach := (Prog.result_each_iff env _ _ reports).mp h
  clear h
  generalize registry.listModuleIds = ids at heach ⊢
  induction heach with
  | nil => exact ⟨rfl, fun _ => rfl⟩
  | cons hreport _ ih =>
      obtain ⟨hkey, hstatus⟩ := inspectModule_ok rt registry env _ _ hreport
      obtain ⟨hkeys, hstatuses⟩ := ih
      exact ⟨congrArg₂ (· :: ·) hkey hkeys, fun look => congrArg₂ (· :: ·) (hstatus look) (hstatuses look)⟩

end Inspection

section Aggregation

variable (rt : Runtime)

-- The text of a status that has one.
def textOf : Except Raised StatusValue → Option PyStr
  | .ok (.member status) => some status.value
  | .ok (.value (.str text)) => some text
  | _ => none

theorem ofValue_error (value : PyData) (h : ∀ text, value ≠ .str text) : ∃ e, Status.ofValue rt value = .error e := by
  have hnone : (Status.all.find? fun status => value.isStr status.value) = none := by
    rw [List.find?_eq_none]
    intro status _
    cases value with
    | str text => exact absurd rfl (h text)
    | _ => exact Bool.false_ne_true
  rw [Status.ofValue, hnone]
  cases value.repr rt with
  | error e => exact ⟨e, rfl⟩
  | ok text => exact ⟨_, rfl⟩

theorem itemText_other (value : PyData) (h : ∀ text, value ≠ .str text) :
    ∃ e, Status.itemText rt (.ok value) = .error e := by
  obtain ⟨e, he⟩ := ofValue_error rt value h
  refine ⟨.of e, ?_⟩
  rw [Status.itemText, ok_bind]
  split
  · next text => exact absurd rfl (h text)
  · rw [he]
    rfl

theorem itemText_eq_ok (report : Report) (text : PyStr) :
    Status.itemText rt report.statusItem = .ok text ↔ textOf (report.status .aggregated) = some text := by
  rw [Report.statusItem]
  cases report.status .aggregated with
  | error e => exact iff_of_false (by simp [Status.itemText]) (by simp [textOf])
  | ok status =>
      rw [ok_bind]
      cases status with
      | member status =>
          exact ⟨fun h => congrArg some (Except.ok.inj h), fun h => congrArg Except.ok (Option.some.inj h)⟩
      | value value =>
          by_cases hother : ∀ s, value ≠ .str s
          · obtain ⟨e, he⟩ := itemText_other rt value hother
            refine iff_of_false (fun h => ?_) (fun h => ?_)
            · change Status.itemText rt (.ok value) = .ok text at h
              rw [he] at h
              cases h
            · cases value with
              | str s => exact hother s rfl
              | _ => cases h
          · obtain ⟨s, rfl⟩ := not_forall_not.mp hother
            exact ⟨fun h => congrArg some (Except.ok.inj h), fun h => congrArg Except.ok (Option.some.inj h)⟩

theorem sequence_map_eq_ok (f : α → Except ε β) (g : α → Option β) (h : ∀ a b, f a = .ok b ↔ g a = some b)
    (as : List α) (bs : List β) :
    Json.sequence (as.map f) = .ok bs ↔ (∀ a ∈ as, (g a).isSome) ∧ bs = as.filterMap g := by
  induction as generalizing bs with
  | nil => exact ⟨fun h => ⟨List.forall_mem_nil _, (Except.ok.inj h).symm⟩, fun h => congrArg Except.ok h.2.symm⟩
  | cons a as ih =>
      rw [List.forall_mem_cons, List.map_cons]
      cases hf : f a with
      | error e =>
          have hnone : g a = none := by
            cases hg : g a with
            | none => rfl
            | some b => cases hf.symm.trans ((h a b).mpr hg)
          exact iff_of_false (by simp [Json.sequence]) (fun hall => by simp [hnone] at hall)
      | ok b =>
          have hsome : g a = some b := (h a b).mp hf
          rw [hsome, List.filterMap_cons_some hsome, Option.isSome_some, and_iff_right rfl, Json.sequence]
          cases hrest : Json.sequence (as.map f) with
          | error e =>
              refine iff_of_false (by simp) ?_
              rintro ⟨hall, -⟩
              rw [(ih _).mpr ⟨hall, rfl⟩] at hrest
              cases hrest
          | ok rest =>
              obtain ⟨hall, rfl⟩ := (ih rest).mp hrest
              rw [and_iff_right hall]
              exact ⟨fun h => (Except.ok.inj h).symm, fun h => congrArg Except.ok h.symm⟩

-- An aggregate takes a text from every report, and is the worst level among them.
theorem aggregateReports_eq_ok (reports : List Report) (aggregate : PyStr) :
    aggregateReports rt reports = .ok aggregate ↔
      (∀ report ∈ reports, (textOf (report.status .aggregated)).isSome) ∧
        aggregate = Status.worst (reports.filterMap fun report => textOf (report.status .aggregated)) := by
  rw [aggregateReports]
  split
  · next hempty =>
      obtain rfl := List.isEmpty_iff.mp hempty
      exact ⟨fun h => ⟨List.forall_mem_nil _, (Except.ok.inj h).symm⟩, fun h => congrArg Except.ok h.2.symm⟩
  · have hitems := sequence_map_eq_ok (Status.itemText rt ∘ Report.statusItem)
      (fun report => textOf (report.status .aggregated)) (itemText_eq_ok rt) reports
    rw [Status.aggregateStatus, List.map_map, bind_eq_ok]
    simp only [hitems]
    constructor
    · rintro ⟨_, ⟨hall, rfl⟩, h⟩
      exact ⟨hall, (Except.ok.inj h).symm⟩
    · rintro ⟨hall, rfl⟩
      exact ⟨_, ⟨hall, rfl⟩, rfl⟩

end Aggregation

section Listing

variable (rt : Runtime)

-- A status that can be shown in the result.
def Shown (status : Except Raised StatusValue) : Prop :=
  ∃ value, status = .ok value ∧ ∀ other, value = .value other → ∃ text, other.toStr rt = .ok text

theorem statusText_isOk_iff (report : Report) :
    (∃ text, report.statusText rt = .ok text) ↔ Shown rt (report.status .listed) := by
  unfold Report.statusText Shown
  cases report.status .listed with
  | error e => exact iff_of_false (by simp) (by simp)
  | ok status =>
      rw [ok_bind]
      cases status with
      | member status => exact iff_of_true ⟨_, rfl⟩ (by simp)
      | value value => simp

theorem lookupKey_isOk_iff (value : PyData) : (∃ key, value.lookupKey = .ok key) ↔ value.hashable = true := by
  unfold PyData.lookupKey
  cases value.hashable <;> simp

theorem entry_eq_ok (report : Report) (item : PyData × PyStr) :
    report.entry rt = .ok item ↔ report.moduleId .listed = .ok item.1 ∧ report.statusText rt = .ok item.2 ∧
      item.1.hashable = true := by
  simp only [Report.entry, bind_eq_ok, plain_eq_ok]
  constructor
  · rintro ⟨key, hkey, text, htext, lookup, hlookup, h⟩
    obtain rfl := Except.ok.inj h
    exact ⟨hkey, htext, (lookupKey_isOk_iff key).mp ⟨lookup, hlookup⟩⟩
  · rintro ⟨hkey, htext, hhashable⟩
    obtain ⟨lookup, hlookup⟩ := (lookupKey_isOk_iff item.1).mpr hhashable
    exact ⟨item.1, hkey, item.2, htext, lookup, hlookup, rfl⟩

theorem sequence_entries (reports : List Report) (items : List (PyData × PyStr)) :
    Json.sequence (reports.map (Report.entry rt)) = .ok items ↔
      reports.map (Report.moduleId · .listed) = items.map (.ok ·.1) ∧
        reports.map (Report.statusText rt) = items.map (.ok ·.2) ∧ ∀ item ∈ items, item.1.hashable = true := by
  rw [Json.sequence_eq_ok_iff]
  induction reports generalizing items with
  | nil => cases items <;> simp
  | cons report reports ih =>
      cases items with
      | nil => simp
      | cons item items =>
          simp only [List.map_cons, List.cons.injEq, ih, entry_eq_ok, List.forall_mem_cons]
          tauto

theorem setEntry_keys (entries : List (PyData × PyStr)) (key : PyData) (value : PyStr) :
    (∃ k ∈ entries.map Prod.fst, k.sameKey key = true) ∧
        (setEntry entries key value).map Prod.fst = entries.map Prod.fst ∨
      (∀ k ∈ entries.map Prod.fst, k.sameKey key = false) ∧ setEntry entries key value = entries ++ [(key, value)] := by
  induction entries with
  | nil => exact .inr ⟨by simp, rfl⟩
  | cons entry entries ih =>
      obtain ⟨k, v⟩ := entry
      rw [setEntry]
      cases hsame : k.sameKey key with
      | true => exact .inl ⟨⟨k, by simp, hsame⟩, rfl⟩
      | false =>
          rw [if_neg Bool.false_ne_true]
          rcases ih with ⟨⟨other, hother, hsameOther⟩, hkeys⟩ | ⟨hnone, happended⟩
          · exact .inl ⟨⟨other, List.mem_cons_of_mem _ hother, hsameOther⟩, congrArg (k :: ·) hkeys⟩
          · exact .inr ⟨List.forall_mem_cons.mpr ⟨hsame, hnone⟩, congrArg ((k, v) :: ·) happended⟩

-- The keys of a dict that gets these items: none is lost, each comes from the items, and each
-- item has one.
structure Keyed (entries items result : List (PyData × PyStr)) : Prop where
  kept : ∀ key ∈ entries.map Prod.fst, key ∈ result.map Prod.fst
  given : ∀ key ∈ result.map Prod.fst, key ∈ entries.map Prod.fst ∨ key ∈ items.map Prod.fst
  present : ∀ item ∈ items, ∃ key ∈ result.map Prod.fst, key = item.1 ∨ key.sameKey item.1 = true

theorem foldl_keyed (items entries : List (PyData × PyStr)) :
    Keyed entries items (items.foldl (fun entries item => setEntry entries item.1 item.2) entries) := by
  induction items generalizing entries with
  | nil => exact ⟨fun _ h => h, fun _ h => .inl h, by simp⟩
  | cons item items ih =>
      obtain ⟨hkept, hgiven, hpresent⟩ := ih (setEntry entries item.1 item.2)
      rw [List.foldl_cons]
      rcases setEntry_keys entries item.1 item.2 with ⟨⟨k, hk, hsame⟩, hkeys⟩ | ⟨-, happended⟩
      · rw [hkeys] at hkept hgiven
        refine ⟨hkept, fun key hkey => (hgiven key hkey).imp_right (List.mem_cons_of_mem _), ?_⟩
        exact List.forall_mem_cons.mpr ⟨⟨k, hkept k hk, .inr hsame⟩, hpresent⟩
      · have hkeys : (setEntry entries item.1 item.2).map Prod.fst = entries.map Prod.fst ++ [item.1] := by
          rw [happended, List.map_append]
          rfl
        rw [hkeys] at hkept hgiven
        refine ⟨fun key hkey => hkept key (List.mem_append_left _ hkey), fun key hkey => ?_, ?_⟩
        · rcases hgiven key hkey with hold | hnew
          · rcases List.mem_append.mp hold with hold | hitem
            · exact .inl hold
            · exact .inr (List.mem_singleton.mp hitem ▸ List.mem_cons_self)
          · exact .inr (List.mem_cons_of_mem _ hnew)
        · exact List.forall_mem_cons.mpr ⟨⟨item.1, hkept item.1 (by simp), .inl rfl⟩, hpresent⟩

-- Texts that differ get an entry each.
theorem foldl_setEntry (items : List (PyStr × PyStr)) (entries : List (PyData × PyStr))
    (hdistinct : (items.map Prod.fst).Nodup) (hnew : ∀ item ∈ items, .str item.1 ∉ entries.map Prod.fst) :
    (items.map fun item => (PyData.str item.1, item.2)).foldl (fun entries item => setEntry entries item.1 item.2)
      entries = entries ++ items.map fun item => (.str item.1, item.2) := by
  induction items generalizing entries with
  | nil => simp
  | cons item items ih =>
      obtain ⟨hfirst, hrest⟩ := List.nodup_cons.mp hdistinct
      obtain ⟨hnewFirst, hnewRest⟩ := List.forall_mem_cons.mp hnew
      rw [List.map_cons, List.foldl_cons]
      rcases setEntry_keys entries (.str item.1) item.2 with ⟨⟨k, hk, hsame⟩, -⟩ | ⟨-, happended⟩
      · exact absurd ((PyData.sameKey_str k item.1).mp hsame ▸ hk) hnewFirst
      · rw [happended, ih _ hrest, List.append_assoc]
        · rfl
        · intro other hother hmem
          rw [List.map_append] at hmem
          rcases List.mem_append.mp hmem with hmem | hmem
          · exact hnewRest other hother hmem
          · have hsame : other.1 = item.1 := PyData.str.inj (List.mem_singleton.mp hmem)
            exact hfirst (hsame ▸ List.mem_map_of_mem hother)

-- The entries of a result stand for these modules.
def Lists (ids : List PyStr) (entries : List (PyData × PyStr)) : Prop :=
  (entries.map Prod.fst).Nodup ∧ ∀ key, key ∈ entries.map Prod.fst ↔ ∃ moduleId ∈ ids, key = .str moduleId

theorem texts_of_keys (keys : List PyData) (h : ∀ key ∈ keys, ∃ text, key = .str text) :
    ∃ texts : List PyStr, keys = texts.map .str := by
  induction keys with
  | nil => exact ⟨[], rfl⟩
  | cons key keys ih =>
      obtain ⟨⟨text, rfl⟩, hrest⟩ := List.forall_mem_cons.mp h
      obtain ⟨texts, rfl⟩ := ih hrest
      exact ⟨text :: texts, rfl⟩

-- Items whose dict stands for these modules have their ids as keys.
theorem ids_of_lists (ids : List PyStr) (hids : ids.Nodup) (items : List (PyData × PyStr))
    (hlength : items.length = ids.length)
    (h : Lists ids (items.foldl (fun entries item => setEntry entries item.1 item.2) [])) :
    ∃ shown : List PyStr, shown.Perm ids ∧ items.map Prod.fst = shown.map .str := by
  obtain ⟨-, hgiven, hpresent⟩ := foldl_keyed items []
  have htext : ∀ key ∈ items.map Prod.fst, ∃ moduleId ∈ ids, key = .str moduleId := by
    intro key hkey
    obtain ⟨item, hitem, rfl⟩ := List.mem_map.mp hkey
    obtain ⟨key, hkey, hsame⟩ := hpresent item hitem
    obtain ⟨moduleId, hmodule, rfl⟩ := (h.2 key).mp hkey
    rcases hsame with hsame | hsame
    · exact ⟨moduleId, hmodule, hsame.symm⟩
    · exact ⟨moduleId, hmodule, (PyData.str_sameKey item.1 moduleId).mp hsame⟩
  obtain ⟨shown, hshown⟩ := texts_of_keys (items.map Prod.fst) fun key hkey => by
    obtain ⟨moduleId, -, hkey⟩ := htext key hkey
    exact ⟨moduleId, hkey⟩
  refine ⟨shown, ?_, hshown⟩
  have hsub : ids ⊆ shown := by
    intro moduleId hmodule
    have hkey := (hgiven _ ((h.2 (.str moduleId)).mpr ⟨moduleId, hmodule, rfl⟩)).resolve_left (by simp)
    rw [hshown] at hkey
    obtain ⟨other, hother, hsame⟩ := List.mem_map.mp hkey
    exact PyData.str.inj hsame ▸ hother
  have hsame : shown.length = items.length := by
    have hboth := congrArg List.length hshown
    rw [List.length_map, List.length_map] at hboth
    exact hboth.symm
  exact ((List.subperm_of_subset hids hsub).perm_of_length_le (by omega)).symm

-- Items under the ids make a dict that stands for the modules.
theorem lists_of_ids (ids : List PyStr) (hids : ids.Nodup) (items : List (PyStr × PyStr))
    (hperm : (items.map Prod.fst).Perm ids) :
    Lists ids ((items.map fun item => (PyData.str item.1, item.2)).foldl
      (fun entries item => setEntry entries item.1 item.2) []) := by
  have hdistinct : (items.map Prod.fst).Nodup := hperm.nodup_iff.mpr hids
  have hkeys : (items.map fun item => (PyData.str item.1, item.2)).map Prod.fst = (items.map Prod.fst).map .str := by
    rw [List.map_map, List.map_map]
    rfl
  rw [foldl_setEntry items [] hdistinct (by simp), List.nil_append, Lists, hkeys]
  refine ⟨hdistinct.map fun _ _ => PyData.str.inj, fun key => ?_⟩
  rw [List.mem_map]
  constructor
  · rintro ⟨moduleId, hmodule, rfl⟩
    exact ⟨moduleId, hperm.mem_iff.mp hmodule, rfl⟩
  · rintro ⟨moduleId, hmodule, rfl⟩
    exact ⟨moduleId, hperm.mem_iff.mpr hmodule, rfl⟩

-- What the reports show, put side by side.
theorem entries_of_shown (reports : List Report) (items : List (PyStr × PyStr))
    (hkeys : reports.map (Report.moduleId · .listed) = items.map fun item => .ok (.str item.1))
    (htexts : reports.map (Report.statusText rt) = items.map fun item => .ok item.2) :
    Json.sequence (reports.map (Report.entry rt)) = .ok (items.map fun item => (PyData.str item.1, item.2)) := by
  refine (sequence_entries rt reports _).mpr ⟨?_, ?_, ?_⟩
  · rw [hkeys, List.map_map]
    rfl
  · rw [htexts, List.map_map]
    rfl
  · intro item hitem
    obtain ⟨pair, -, rfl⟩ := List.mem_map.mp hitem
    rfl

-- The result has exactly one entry for each module if what it shows are their ids.
theorem moduleStatuses_iff (reports : List Report) (ids : List PyStr) (hids : ids.Nodup)
    (hlength : reports.length = ids.length) :
    (∃ entries, moduleStatuses rt reports = .ok entries ∧ Lists ids entries) ↔
      (∀ report ∈ reports, Shown rt (report.status .listed)) ∧
        ∃ shown : List PyStr, shown.Perm ids ∧
          reports.map (Report.moduleId · .listed) = shown.map fun moduleId => .ok (.str moduleId) := by
  constructor
  · rintro ⟨entries, hentries, hlists⟩
    obtain ⟨items, hitems, h⟩ := (bind_eq_ok _ _ _).mp hentries
    obtain rfl := Except.ok.inj h
    obtain ⟨hkeys, htexts, -⟩ := (sequence_entries rt reports items).mp hitems
    have hsame : items.length = ids.length := by
      have hboth := congrArg List.length hkeys
      rw [List.length_map, List.length_map] at hboth
      omega
    obtain ⟨shown, hperm, hshown⟩ := ids_of_lists ids hids items hsame hlists
    refine ⟨fun report hreport => ?_, shown, hperm, ?_⟩
    · have hmem : report.statusText rt ∈ reports.map (Report.statusText rt) := List.mem_map_of_mem hreport
      rw [htexts] at hmem
      obtain ⟨item, -, hitem⟩ := List.mem_map.mp hmem
      exact (statusText_isOk_iff rt report).mp ⟨item.2, hitem.symm⟩
    · calc reports.map (Report.moduleId · .listed)
          = (items.map Prod.fst).map .ok := by rw [hkeys, List.map_map]; rfl
        _ = shown.map fun moduleId => .ok (.str moduleId) := by rw [hshown, List.map_map]; rfl
  · rintro ⟨hshown, shown, hperm, hkeys⟩
    have htexts : ∀ result ∈ reports.map (Report.statusText rt), ∃ text, result = .ok text := by
      intro result hresult
      obtain ⟨report, hreport, rfl⟩ := List.mem_map.mp hresult
      exact (statusText_isOk_iff rt report).mpr (hshown report hreport)
    obtain ⟨texts, htexts⟩ := (Json.sequence_isOk_iff _).mpr htexts
    have htexts := (Json.sequence_eq_ok_iff _ texts).mp htexts
    have hlengths : shown.length = texts.length := by
      have hfirst := congrArg List.length htexts
      rw [List.length_map, List.length_map] at hfirst
      rw [hperm.length_eq, ← hlength, hfirst]
    have hfst : (shown.zip texts).map Prod.fst = shown := List.map_fst_zip hlengths.le
    have hsnd : (shown.zip texts).map Prod.snd = texts := List.map_snd_zip hlengths.ge
    have hshownKeys : reports.map (Report.moduleId · .listed) =
        (shown.zip texts).map fun item => .ok (.str item.1) := by
      conv_lhs => rw [hkeys, ← hfst, List.map_map]
      rfl
    have hshownTexts : reports.map (Report.statusText rt) = (shown.zip texts).map fun item => .ok item.2 := by
      conv_lhs => rw [htexts, ← hsnd, List.map_map]
      rfl
    have hitems := entries_of_shown rt reports (shown.zip texts) hshownKeys hshownTexts
    refine ⟨_, ?_, lists_of_ids ids hids (shown.zip texts) (by rw [hfst]; exact hperm)⟩
    rw [moduleStatuses, hitems]
    rfl

end Listing

end V91Core.Agent
