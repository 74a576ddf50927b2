import V91Core.Agent.Registry

namespace V91Core.Agent.ModuleStandard

open V91Core.Python

section Values

-- A text with more than white space in it.
abbrev RequiredText := { text : PyStr // strip text ≠ [] }

abbrev NonEmptyText := { text : PyStr // text ≠ [] }

-- `isinstance(value, int) and value >= 1`, which is true of `True`.
def isPositiveInt : Json → Bool
  | .int n => 1 ≤ n
  | .bool b => b
  | _ => false

abbrev PositiveInt := { value : Json // isPositiveInt value = true }

structure HealthcheckSpec where
  enabled : Bool
  intervalSeconds : PositiveInt

structure UpdatePolicySpec where
  automaticCheck : Bool
  automaticInstall : Bool
  rollbackRequired : Bool

structure ModuleSpec where
  moduleId : RequiredText
  name : RequiredText
  version : RequiredText
  apiVersion : RequiredText
  enabled : Bool
  platforms : List NonEmptyText
  capabilities : List NonEmptyText
  permissions : List NonEmptyText
  healthcheck : HealthcheckSpec
  updatePolicy : UpdatePolicySpec

-- What the register keeps of a description.
def ModuleSpec.registered (spec : ModuleSpec) : Agent.ModuleSpec :=
  ⟨spec.moduleId.val, spec.version.val, spec.permissions.map Subtype.val⟩

end Values

section Loading

variable (data : List (PyStr × Json))

def moduleError (text : PyStr) : PyExc := .valueError (py "module.json: " ++ text)

def requireStr (key : String) : Except PyExc RequiredText :=
  let refused := .error (moduleError (py "Feld '" ++ py key ++ py "' fehlt oder ist kein nicht-leerer String"))
  match Json.lookup (py key) data with
  | some (.str value) => if h : strip value = [] then refused else .ok ⟨value, h⟩
  | _ => refused

def requireBool (key : String) : Except PyExc Bool :=
  match Json.lookup (py key) data with
  | some (.bool value) => .ok value
  | _ => .error (moduleError (py "Feld '" ++ py key ++ py "' fehlt oder ist kein Boolean"))

def nonEmptyText : Json → Option NonEmptyText
  | .str text => if h : text = [] then none else some ⟨text, h⟩
  | _ => none

def requireStrList (key : String) : Except PyExc (List NonEmptyText) :=
  let refused := moduleError (py "Feld '" ++ py key ++ py "' muss eine Liste nicht-leerer Strings sein")
  match Json.lookup (py key) data with
  | some (.arr items) => ofOption refused (items.mapM nonEmptyText)
  | _ => .error refused

def requiredTopLevel : List String :=
  ["module_id", "name", "version", "api_version", "enabled", "platforms", "capabilities", "permissions"]

def readHealthcheck : Except PyExc HealthcheckSpec :=
  let refused := .error (moduleError (py "'healthcheck' benoetigt enabled:bool und interval_seconds:int>0"))
  match Json.lookup (py "healthcheck") data with
  | some (.obj hc) =>
      match Json.lookup (py "enabled") hc, Json.lookup (py "interval_seconds") hc with
      | some (.bool enabled), some interval =>
          if h : isPositiveInt interval = true then .ok ⟨enabled, interval, h⟩ else refused
      | _, _ => refused
  | _ => refused

def readPolicyFlag (up : List (PyStr × Json)) (key : String) : Except PyExc Bool :=
  match Json.lookup (py key) up with
  | some (.bool value) => .ok value
  | _ => .error (moduleError (py "update_policy." ++ py key ++ py " muss ein Boolean sein"))

def readUpdatePolicy : Except PyExc UpdatePolicySpec :=
  match Json.lookup (py "update_policy") data with
  | some (.obj up) => do
      let automaticCheck ← readPolicyFlag up "automatic_check"
      let automaticInstall ← readPolicyFlag up "automatic_install"
      let rollbackRequired ← readPolicyFlag up "rollback_required"
      return ⟨automaticCheck, automaticInstall, rollbackRequired⟩
  | _ => .error (moduleError (py "'update_policy' fehlt"))

def readFields : Except PyExc ModuleSpec := do
  let healthcheck ← readHealthcheck data
  let updatePolicy ← readUpdatePolicy data
  let moduleId ← requireStr data "module_id"
  let name ← requireStr data "name"
  let version ← requireStr data "version"
  let apiVersion ← requireStr data "api_version"
  let enabled ← requireBool data "enabled"
  let platforms ← requireStrList data "platforms"
  let capabilities ← requireStrList data "capabilities"
  let permissions ← requireStrList data "permissions"
  return ⟨moduleId, name, version, apiVersion, enabled, platforms, capabilities, permissions, healthcheck, updatePolicy⟩

def loadModuleSpec : Json → Except PyExc ModuleSpec
  | .obj data =>
      match requiredTopLevel.find? fun key => (Json.lookup (py key) data).isNone with
      | some key => .error (moduleError (py "Pflichtfeld '" ++ py key ++ py "' fehlt"))
      | none => readFields data
  | _ => .error (moduleError (py "oberste Ebene muss ein JSON-Objekt sein"))

end Loading

section Writing

def texts (items : List NonEmptyText) : Json := .arr (items.map fun text => .str text.val)

def ModuleSpec.toDict (spec : ModuleSpec) : Json :=
  .obj [(py "module_id", .str spec.moduleId.val), (py "name", .str spec.name.val),
    (py "version", .str spec.version.val), (py "api_version", .str spec.apiVersion.val),
    (py "enabled", .bool spec.enabled), (py "platforms", texts spec.platforms),
    (py "capabilities", texts spec.capabilities), (py "permissions", texts spec.permissions),
    (py "healthcheck", .obj [(py "enabled", .bool spec.healthcheck.enabled),
      (py "interval_seconds", spec.healthcheck.intervalSeconds.val)]),
    (py "update_policy", .obj [(py "automatic_check", .bool spec.updatePolicy.automaticCheck),
      (py "automatic_install", .bool spec.updatePolicy.automaticInstall),
      (py "rollback_required", .bool spec.updatePolicy.rollbackRequired)])]

end Writing

section RoundTrip

variable {data : List (PyStr × Json)}

theorem requireStr_eq_ok (key : String) (text : RequiredText) :
    requireStr data key = .ok text ↔ Json.lookup (py key) data = some (.str text.val) := by
  unfold requireStr
  split
  · next value hlookup =>
      rw [hlookup]
      split
      · next hempty =>
          refine iff_of_false (by simp) fun h => ?_
          obtain rfl := Json.str.inj (Option.some.inj h)
          exact text.property hempty
      · simp [Subtype.ext_iff]
  · next hother => exact iff_of_false (by simp) fun h => hother text.val h

theorem requireBool_eq_ok (key : String) (value : Bool) :
    requireBool data key = .ok value ↔ Json.lookup (py key) data = some (.bool value) := by
  unfold requireBool
  split
  · next flag hlookup => simp [hlookup]
  · next hother => exact iff_of_false (by simp) fun h => hother value h

theorem nonEmptyText_eq_some (j : Json) (text : NonEmptyText) : nonEmptyText j = some text ↔ j = .str text.val := by
  cases j with
  | str value =>
      show (if h : value = [] then none else some (⟨value, h⟩ : NonEmptyText)) = some text ↔ _
      by_cases hempty : value = []
      · rw [dif_pos hempty]
        refine iff_of_false (by simp) fun h => ?_
        obtain rfl := Json.str.inj h
        exact text.property hempty
      · rw [dif_neg hempty]
        simp [Subtype.ext_iff]
  | _ => exact iff_of_false (by simp [nonEmptyText]) (by simp)

theorem mapM_nonEmptyText (items : List Json) (list : List NonEmptyText) :
    items.mapM nonEmptyText = some list ↔ items = list.map fun text => .str text.val := by
  induction items generalizing list with
  | nil => cases list <;> simp
  | cons j items ih =>
      rw [List.mapM_cons]
      cases list with
      | nil => simp [Option.bind_eq_some_iff]
      | cons text list => simp [Option.bind_eq_some_iff, nonEmptyText_eq_some, ih]

theorem requireStrList_eq_ok (key : String) (list : List NonEmptyText) :
    requireStrList data key = .ok list ↔ Json.lookup (py key) data = some (texts list) := by
  unfold requireStrList
  split
  · next items hlookup =>
      rw [hlookup, texts, Option.some.injEq, Json.arr.injEq, ← mapM_nonEmptyText]
      cases items.mapM nonEmptyText <;> simp [ofOption]
  · next hother => exact iff_of_false (by simp) fun h => hother _ h

theorem readPolicyFlag_eq_ok (up : List (PyStr × Json)) (key : String) (value : Bool) :
    readPolicyFlag up key = .ok value ↔ Json.lookup (py key) up = some (.bool value) := by
  unfold readPolicyFlag
  split
  · next flag hlookup => simp [hlookup]
  · next hother => exact iff_of_false (by simp) fun h => hother value h

theorem readHealthcheck_eq_ok (healthcheck : HealthcheckSpec) :
    readHealthcheck data = .ok healthcheck ↔ ∃ hc, Json.lookup (py "healthcheck") data = some (.obj hc) ∧
      Json.lookup (py "enabled") hc = some (.bool healthcheck.enabled) ∧
      Json.lookup (py "interval_seconds") hc = some healthcheck.intervalSeconds.val := by
  obtain ⟨flag, value, hvalue⟩ := healthcheck
  unfold readHealthcheck
  split
  · next hc hlookup =>
      rw [hlookup]
      simp only [Option.some.injEq, Json.obj.injEq, exists_eq_left']
      split
      · next enabled interval henabled hinterval =>
          rw [henabled, hinterval]
          split
          · simp
          · next hnot =>
              refine iff_of_false (by simp) ?_
              rintro ⟨-, h⟩
              obtain rfl := Option.some.inj h
              exact hnot hvalue
      · next hother => exact iff_of_false (by simp) fun h => hother _ _ h.1 h.2
  · next hother =>
      refine iff_of_false (by simp) ?_
      rintro ⟨hc, h, -⟩
      exact hother hc h

theorem readUpdatePolicy_eq_ok (policy : UpdatePolicySpec) :
    readUpdatePolicy data = .ok policy ↔ ∃ up, Json.lookup (py "update_policy") data = some (.obj up) ∧
      Json.lookup (py "automatic_check") up = some (.bool policy.automaticCheck) ∧
      Json.lookup (py "automatic_install") up = some (.bool policy.automaticInstall) ∧
      Json.lookup (py "rollback_required") up = some (.bool policy.rollbackRequired) := by
  unfold readUpdatePolicy
  split
  · next up hlookup =>
      simp only [hlookup, Option.some.injEq, Json.obj.injEq, exists_eq_left', bind_eq_ok, readPolicyFlag_eq_ok]
      constructor
      · rintro ⟨check, hcheck, install, hinstall, rollback, hrollback, h⟩
        obtain rfl := Except.ok.inj h
        exact ⟨hcheck, hinstall, hrollback⟩
      · rintro ⟨hcheck, hinstall, hrollback⟩
        exact ⟨_, hcheck, _, hinstall, _, hrollback, rfl⟩
  · next hother =>
      refine iff_of_false (by simp) ?_
      rintro ⟨up, h, -⟩
      exact hother up h

-- What a document has to say for the module to be described as this.
structure Describes (data : List (PyStr × Json)) (spec : ModuleSpec) : Prop where
  moduleId : Json.lookup (py "module_id") data = some (.str spec.moduleId.val)
  name : Json.lookup (py "name") data = some (.str spec.name.val)
  version : Json.lookup (py "version") data = some (.str spec.version.val)
  apiVersion : Json.lookup (py "api_version") data = some (.str spec.apiVersion.val)
  enabled : Json.lookup (py "enabled") data = some (.bool spec.enabled)
  platforms : Json.lookup (py "platforms") data = some (texts spec.platforms)
  capabilities : Json.lookup (py "capabilities") data = some (texts spec.capabilities)
  permissions : Json.lookup (py "permissions") data = some (texts spec.permissions)
  healthcheck : ∃ hc, Json.lookup (py "healthcheck") data = some (.obj hc) ∧
    Json.lookup (py "enabled") hc = some (.bool spec.healthcheck.enabled) ∧
    Json.lookup (py "interval_seconds") hc = some spec.healthcheck.intervalSeconds.val
  updatePolicy : ∃ up, Json.lookup (py "update_policy") data = some (.obj up) ∧
    Json.lookup (py "automatic_check") up = some (.bool spec.updatePolicy.automaticCheck) ∧
    Json.lookup (py "automatic_install") up = some (.bool spec.updatePolicy.automaticInstall) ∧
    Json.lookup (py "rollback_required") up = some (.bool spec.updatePolicy.rollbackRequired)

theorem readFields_eq_ok (spec : ModuleSpec) : readFields data = .ok spec ↔ Describes data spec := by
  simp only [readFields, bind_eq_ok, readHealthcheck_eq_ok, readUpdatePolicy_eq_ok, requireStr_eq_ok, requireBool_eq_ok,
    requireStrList_eq_ok]
  constructor
  · rintro ⟨hc, hhc, up, hup, moduleId, hid, name, hname, version, hversion, api, hapi, enabled, henabled, platforms,
      hplatforms, capabilities, hcapabilities, permissions, hpermissions, h⟩
    obtain rfl := Except.ok.inj h
    exact ⟨hid, hname, hversion, hapi, henabled, hplatforms, hcapabilities, hpermissions, hhc, hup⟩
  · intro h
    exact ⟨_, h.healthcheck, _, h.updatePolicy, _, h.moduleId, _, h.name, _, h.version, _, h.apiVersion,
      _, h.enabled, _, h.platforms, _, h.capabilities, _, h.permissions, rfl⟩

theorem loadModuleSpec_eq_ok (document : Json) (spec : ModuleSpec) :
    loadModuleSpec document = .ok spec ↔ ∃ data, document = .obj data ∧ Describes data spec := by
  cases document with
  | obj data =>
      simp only [Json.obj.injEq, exists_eq_left', ← readFields_eq_ok, loadModuleSpec]
      cases hmissing : requiredTopLevel.find? fun key => (Json.lookup (py key) data).isNone with
      | none => rfl
      | some key =>
          refine iff_of_false (by simp) fun h => ?_
          have hnone := List.find?_some hmissing
          have hdescribes := (readFields_eq_ok spec).mp h
          have hkey := List.mem_of_find?_eq_some hmissing
          simp only [requiredTopLevel, List.mem_cons, List.not_mem_nil, or_false] at hkey
          rcases hkey with rfl | rfl | rfl | rfl | rfl | rfl | rfl | rfl
          · simp [hdescribes.moduleId] at hnone
          · simp [hdescribes.name] at hnone
          · simp [hdescribes.version] at hnone
          · simp [hdescribes.apiVersion] at hnone
          · simp [hdescribes.enabled] at hnone
          · simp [hdescribes.platforms] at hnone
          · simp [hdescribes.capabilities] at hnone
          · simp [hdescribes.permissions] at hnone
  | _ => exact iff_of_false (by simp [loadModuleSpec]) (by simp)

theorem toDict_describes (spec : ModuleSpec) : ∃ data, spec.toDict = .obj data ∧ Describes data spec := by
  refine ⟨_, rfl, ?_⟩
  constructor
  case healthcheck => exact ⟨_, rfl, rfl, rfl⟩
  case updatePolicy => exact ⟨_, rfl, rfl, rfl, rfl⟩
  all_goals rfl

-- A document is loaded as the description that it gives, and what `to_dict` writes is
-- loaded as what it was written from.
theorem load_roundTrip (spec : ModuleSpec) :
    loadModuleSpec spec.toDict = .ok spec ∧ ∀ document, loadModuleSpec document = .ok spec ↔
      ∃ data, document = .obj data ∧ Describes data spec :=
  ⟨(loadModuleSpec_eq_ok _ spec).mpr (toDict_describes spec), fun document => loadModuleSpec_eq_ok document spec⟩

end RoundTrip

end V91Core.Agent.ModuleStandard
