import Mathlib.Data.List.AList
import Mathlib.Data.List.Sort
import V91Core.Python.Data

namespace V91Core.Agent

open V91Core.Python

-- What the register and the agent read of a module's description.
structure ModuleSpec where
  moduleId : PyStr
  version : PyStr
  permissions : List PyStr

def defaultAllowedPermissions : List PyStr := [py "read_module_status"]

-- The two dicts have the same keys, since `register` is all that writes them.
structure ModuleRegistry (Adapter : Type) where
  allowedPermissions : List PyStr
  specs : AList fun _ : PyStr => ModuleSpec
  adapters : AList fun _ : PyStr => Option Adapter
  paired : ∀ moduleId, moduleId ∈ adapters ↔ moduleId ∈ specs

namespace ModuleRegistry

variable {Adapter : Type}

def init (allowedPermissions : List PyStr) : ModuleRegistry Adapter :=
  ⟨allowedPermissions, ∅, ∅, fun _ => Iff.rfl⟩

def register (registry : ModuleRegistry Adapter) (spec : ModuleSpec) (adapter : Option Adapter) :
    Except PyExc (ModuleRegistry Adapter) :=
  if spec.moduleId ∈ registry.specs then
    .error (.valueError (py "Doppelte Registrierung: '" ++ spec.moduleId ++ py "' ist bereits registriert"))
  else if ∃ permission ∈ spec.permissions, permission ∉ registry.allowedPermissions then
    .error (.osError (py "PermissionError"))
  else
    .ok ⟨registry.allowedPermissions, registry.specs.insert spec.moduleId spec,
      registry.adapters.insert spec.moduleId adapter, by simp [registry.paired]⟩

def getSpec (registry : ModuleRegistry Adapter) (moduleId : PyStr) : Except PyExc ModuleSpec :=
  ofOption .keyError (registry.specs.lookup moduleId)

def getAdapter (registry : ModuleRegistry Adapter) (moduleId : PyStr) : Option Adapter :=
  (registry.adapters.lookup moduleId).join

-- `sorted(self._specs)`.
def listModuleIds (registry : ModuleRegistry Adapter) : List PyStr :=
  registry.specs.keys.insertionSort fun a b => strLe a b = true

theorem mem_listModuleIds (registry : ModuleRegistry Adapter) (moduleId : PyStr) :
    moduleId ∈ registry.listModuleIds ↔ moduleId ∈ registry.specs :=
  (List.perm_insertionSort _ _).mem_iff

theorem listModuleIds_nodup (registry : ModuleRegistry Adapter) : registry.listModuleIds.Nodup :=
  (List.perm_insertionSort _ _).nodup_iff.mpr registry.specs.keys_nodup

theorem getSpec_of_mem (registry : ModuleRegistry Adapter) (moduleId : PyStr)
    (h : moduleId ∈ registry.listModuleIds) : ∃ spec, registry.getSpec moduleId = .ok spec := by
  rw [mem_listModuleIds] at h
  obtain ⟨spec, hspec⟩ := Option.isSome_iff_exists.mp (AList.lookup_isSome.mpr h)
  exact ⟨spec, by rw [getSpec, hspec]; rfl⟩

-- A module with an adapter is a registered one.
theorem mem_of_getAdapter (registry : ModuleRegistry Adapter) (moduleId : PyStr) (adapter : Adapter)
    (h : registry.getAdapter moduleId = some adapter) : moduleId ∈ registry.listModuleIds := by
  rw [mem_listModuleIds, ← registry.paired, ← AList.lookup_isSome]
  have hvalue : registry.adapters.lookup moduleId = some (some adapter) := Option.join_eq_some_iff.mp h
  rw [hvalue]
  rfl

-- A registration adds its module and leaves the others as they were.
theorem register_eq_ok (registry next : ModuleRegistry Adapter) (spec : ModuleSpec) (adapter : Option Adapter)
    (h : registry.register spec adapter = .ok next) :
    spec.moduleId ∉ registry.specs ∧ next.getSpec spec.moduleId = .ok spec ∧
      next.getAdapter spec.moduleId = adapter ∧ ∀ other, other ≠ spec.moduleId →
        next.getSpec other = registry.getSpec other ∧ next.getAdapter other = registry.getAdapter other := by
  unfold register at h
  split at h
  · cases h
  next hnew =>
    split at h
    · cases h
    · obtain rfl := Except.ok.inj h
      refine ⟨hnew, ?_, ?_, ?_⟩
      · rw [getSpec, AList.lookup_insert]
        rfl
      · rw [getAdapter, AList.lookup_insert]
        rfl
      · intro other hne
        rw [getSpec, getAdapter, AList.lookup_insert_ne hne, AList.lookup_insert_ne hne]
        exact ⟨rfl, rfl⟩

end ModuleRegistry

end V91Core.Agent
