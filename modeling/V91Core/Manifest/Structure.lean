import V91Core.Manifest.Signed

namespace V91Core.Manifest

open V91Core.Python V91Core.Store

section Structure

variable (done : Unit)

theorem ensure_eq_ok (ok : Bool) (msg : PyStr) : ensure ok msg = .ok done ↔ ok = true := by
  cases ok <;> simp [ensure, invalid]

theorem ensureAll_eq_ok (keys : List PyStr) (ok : PyStr → Bool) (msg : PyStr → PyStr) :
    ensureAll keys ok msg = .ok done ↔ ∀ key ∈ keys, ok key = true := by
  unfold ensureAll
  cases hfind : keys.find? fun key => !ok key with
  | none => simpa using List.find?_eq_none.mp hfind
  | some key =>
      have hkey : ok key = false := by simpa using List.find?_some hfind
      simp only [invalid, reduceCtorEq, false_iff, not_forall]
      exact ⟨key, List.mem_of_find?_eq_some hfind, by simp [hkey]⟩

-- A dict that has these keys, with values that pass the check.
def Group (required : List PyStr) (ok : PyData → Bool) (value : PyData) : Prop :=
  ∃ entries, value = .dict entries ∧ ∀ key ∈ required, ∃ v, PyData.get? key entries = some v ∧ ok v = true

variable (rt : Runtime)

theorem checkGroup_eq_ok (name : PyStr) (required : List PyStr) (ok : PyData → Bool) (expected : PyStr)
    (value : PyData) : checkGroup rt name required ok expected value = .ok done ↔ Group required ok value := by
  cases value with
  | dict entries =>
      simp only [checkGroup, bind_eq_ok, ensure_eq_ok, ensureAll_eq_ok, List.all_eq_true, exists_const, Group,
        PyData.dict.injEq, exists_eq_left', fieldOf]
      rw [← forall₂_and]
      refine forall₂_congr fun key _ => ?_
      cases PyData.get? key entries <;> simp
  | _ => simp [checkGroup, invalid, Group]

theorem checkVersion_eq_ok (value : PyData) : checkVersion rt value = .ok done ↔ value.eqInt 1 = true := by
  unfold checkVersion
  split
  · next h => exact iff_of_true rfl h
  · next h =>
      refine iff_of_false ?_ h
      intro hok
      obtain ⟨text, -, hinvalid⟩ := (bind_eq_ok _ _ _).mp hok
      cases hinvalid

-- What a manifest must look like to be signed.
structure WellFormed (entries : List (PyData × PyData)) : Prop where
  present : ∀ key ∈ requiredTopLevel, (PyData.get? key entries).isSome = true
  version : (fieldOf entries (py "schema_version")).eqInt 1 = true
  texts : ∀ key ∈ textFields, (fieldOf entries key).nonBlank?.isSome = true
  issued : ∃ t, parseInstant rt (fieldOf entries (py "issued_at")) = .ok t
  expires : ∃ t, parseInstant rt (fieldOf entries (py "expires_at")) = .ok t
  resources : Group requiredResources isAmount (fieldOf entries (py "resources"))
  contributions : Group requiredContributions PyData.isBool (fieldOf entries (py "contributions"))

theorem missing_isEmpty (entries : List (PyData × PyData)) :
    (requiredTopLevel.filter fun key => (PyData.get? key entries).isNone).isEmpty = true ↔
      ∀ key ∈ requiredTopLevel, (PyData.get? key entries).isSome = true := by
  rw [List.isEmpty_iff, List.filter_eq_nil_iff]
  refine forall₂_congr fun key _ => ?_
  cases PyData.get? key entries <;> simp

theorem validateStructure_eq_ok (entries : List (PyData × PyData)) :
    validateStructure rt entries = .ok done ↔ WellFormed rt entries := by
  simp only [validateStructure, checkResources, checkContributions, bind_eq_ok, ensure_eq_ok, missing_isEmpty,
    checkVersion_eq_ok, ensureAll_eq_ok, checkGroup_eq_ok, exists_const]
  constructor
  · rintro ⟨hpresent, hversion, htexts, issued, hissued, expires, hexpires, hresources, hcontributions⟩
    exact ⟨hpresent, hversion, htexts, ⟨issued, hissued⟩, ⟨expires, hexpires⟩, hresources, hcontributions⟩
  · rintro ⟨hpresent, hversion, htexts, ⟨issued, hissued⟩, ⟨expires, hexpires⟩, hresources, hcontributions⟩
    exact ⟨hpresent, hversion, htexts, issued, hissued, expires, hexpires, hresources, hcontributions⟩

end Structure

section Order

theorem fieldOf_ofFields (key : PyStr) (fields : List (PyStr × Json)) :
    fieldOf (PyData.ofFields fields) key = .ofJson ((Json.lookup key fields).getD .null) := by
  rw [fieldOf, PyData.get?_ofFields]
  cases Json.lookup key fields <;> rfl

-- A check that does not look into lists and dicts.
def Shallow (check : PyData → α) : Prop := ∀ j, check (.ofJson (Json.norm j)) = check (.ofJson j)

theorem shallow_of_const (check : PyData → α)
    (hlist : ∀ items others, check (.list items) = check (.list others))
    (hdict : ∀ entries others, check (.dict entries) = check (.dict others)) : Shallow check := by
  intro j
  cases j with
  | arr items => exact hlist _ _
  | obj fields => exact hdict _ _
  | _ => rfl

theorem shallow_eqInt (n : Int) : Shallow (PyData.eqInt n) := shallow_of_const _ (fun _ _ => rfl) fun _ _ => rfl

theorem shallow_nonBlank : Shallow PyData.nonBlank? := shallow_of_const _ (fun _ _ => rfl) fun _ _ => rfl

theorem shallow_isBool : Shallow PyData.isBool := shallow_of_const _ (fun _ _ => rfl) fun _ _ => rfl

theorem shallow_isAmount : Shallow isAmount := shallow_of_const _ (fun _ _ => rfl) fun _ _ => rfl

variable (rt : Runtime)

theorem shallow_parseInstant : Shallow (parseInstant rt) := shallow_of_const _ (fun _ _ => rfl) fun _ _ => rfl

-- Whether a dict has these keys, with values that pass such a check, does not depend
-- on the order of its keys.
theorem group_norm_iff (required : List PyStr) (ok : PyData → Bool) (hok : Shallow ok) (j : Json)
    (hj : Json.Wf j) : Group required ok (.ofJson (Json.norm j)) ↔ Group required ok (.ofJson j) := by
  cases j with
  | obj fields =>
      simp only [Json.norm, PyData.ofJson, Group, PyData.dict.injEq, exists_eq_left']
      refine forall₂_congr fun key _ => ?_
      rw [PyData.get?_ofFields, PyData.get?_ofFields, Json.lookup_norm key fields hj.1]
      cases Json.lookup key fields with
      | none => simp
      | some value => simp [hok value]
  | _ => simp [Json.norm, PyData.ofJson, Group]

section Reordered

-- Two dicts that are equal but for the order of the keys, also in the dicts below.
variable (manifest other : Json.Dict) (hnorm : Json.norm manifest.json = Json.norm other.json)

include hnorm

theorem norm_field_eq (key : PyStr) :
    Json.norm ((Json.lookup key manifest.fields).getD .null) =
      Json.norm ((Json.lookup key other.fields).getD .null) := by
  have hnull : ∀ value : Option Json, Json.norm (value.getD .null) = (value.map Json.norm).getD .null := by
    intro value
    cases value <;> rfl
  rw [hnull, hnull, Json.lookup_eq_of_norm_eq manifest other key hnorm]

theorem check_eq (check : PyData → α) (hcheck : Shallow check) (key : PyStr) :
    check (fieldOf (PyData.ofFields manifest.fields) key) = check (fieldOf (PyData.ofFields other.fields) key) := by
  rw [fieldOf_ofFields, fieldOf_ofFields, ← hcheck, norm_field_eq manifest other hnorm key, hcheck]

theorem group_iff (required : List PyStr) (ok : PyData → Bool) (hok : Shallow ok) (key : PyStr) :
    Group required ok (fieldOf (PyData.ofFields manifest.fields) key) ↔
      Group required ok (fieldOf (PyData.ofFields other.fields) key) := by
  have hfield : ∀ dict : Json.Dict, Json.Wf ((Json.lookup key dict.fields).getD .null) := by
    intro dict
    cases hlookup : Json.lookup key dict.fields with
    | none => trivial
    | some value =>
        have hvalues := (Json.wfFields_iff dict.fields).mp dict.wf.2
        exact hvalues (key, value) (Json.mem_of_lookup key value dict.fields hlookup)
  rw [fieldOf_ofFields, fieldOf_ofFields, ← group_norm_iff required ok hok _ (hfield manifest),
    norm_field_eq manifest other hnorm key, group_norm_iff required ok hok _ (hfield other)]

-- Validation does not see the order of the keys.
theorem WellFormed.reorder (h : WellFormed rt (PyData.ofFields manifest.fields)) :
    WellFormed rt (PyData.ofFields other.fields) := by
  have hcheck {α : Type} (check : PyData → α) (hshallow : Shallow check) (key : PyStr) :=
    check_eq manifest other hnorm check hshallow key
  constructor
  · intro key hkey
    have hpresent := h.present key hkey
    have hlookup := congrArg Option.isSome (Json.lookup_eq_of_norm_eq manifest other key hnorm)
    rw [PyData.get?_ofFields, Option.isSome_map] at hpresent ⊢
    rw [Option.isSome_map, Option.isSome_map] at hlookup
    exact hlookup.symm.trans hpresent
  · rw [← hcheck _ (shallow_eqInt 1)]
    exact h.version
  · intro key hkey
    rw [← hcheck _ shallow_nonBlank]
    exact h.texts key hkey
  · rw [← hcheck _ (shallow_parseInstant rt)]
    exact h.issued
  · rw [← hcheck _ (shallow_parseInstant rt)]
    exact h.expires
  · rw [← group_iff manifest other hnorm _ _ shallow_isAmount]
    exact h.resources
  · rw [← group_iff manifest other hnorm _ _ shallow_isBool]
    exact h.contributions

end Reordered

end Order

section Errors

-- Every exception of the computation is a `ManifestError`.
def Structural (x : Except PyExc α) : Prop := ∀ e, x = .error e → ∃ msg, e = .manifestError msg

theorem structural_bind_iff (x : Except PyExc α) (f : α → Except PyExc β) :
    Structural (x >>= f) ↔ Structural x ∧ ∀ a, x = .ok a → Structural (f a) := by
  cases x with
  | error e =>
      have herror : ((Except.error e : Except PyExc α) >>= f) = .error e := rfl
      rw [herror]
      refine ⟨fun h => ⟨fun e' he => h e' (congrArg _ (Except.error.inj he)), nofun⟩, ?_⟩
      exact fun h e' he => h.1 e' (congrArg _ (Except.error.inj he))
  | ok a =>
      refine ⟨fun h => ⟨nofun, fun b hb => ?_⟩, fun h => h.2 a rfl⟩
      obtain rfl := Except.ok.inj hb
      exact h

theorem structural_invalid (msg : PyStr) : Structural (invalid msg : Except PyExc α) := by
  intro e he
  exact ⟨msg, (Except.error.inj he).symm⟩

theorem structural_ok (a : α) : Structural (.ok a) := nofun

theorem structural_ensure (ok : Bool) (msg : PyStr) : Structural (ensure ok msg) := by
  unfold ensure
  split
  · exact structural_ok ()
  · exact structural_invalid msg

theorem structural_ensureAll (keys : List PyStr) (ok : PyStr → Bool) (msg : PyStr → PyStr) :
    Structural (ensureAll keys ok msg) := by
  unfold ensureAll
  split
  · exact structural_invalid _
  · exact structural_ok ()

variable (rt : Runtime)

theorem structural_parseInstant (value : PyData) : Structural (parseInstant rt value) := by
  unfold parseInstant
  split
  · split
    · exact structural_invalid _
    · exact structural_invalid _
    · exact structural_ok _
  · exact structural_invalid _

theorem structural_checkGroup (name : PyStr) (required : List PyStr) (ok : PyData → Bool) (expected : PyStr)
    (value : PyData) : Structural (checkGroup rt name required ok expected value) := by
  unfold checkGroup
  split
  · rw [structural_bind_iff]
    exact ⟨structural_ensure _ _, fun _ _ => structural_ensureAll _ _ _⟩
  · exact structural_invalid _

-- `repr` never raises a `ManifestError`.
theorem repr_ne_manifestError (limit : Nat) (j : Json) (msg : PyStr) :
    PyData.reprAt rt limit (.ofJson j) ≠ .error (.manifestError msg) := by
  intro h
  rcases PyData.reprAt_error rt limit j _ h with ⟨text, htext⟩ | hrecursion
  · cases htext
  · cases hrecursion

-- Showing a version that is not supported may raise something else.
theorem structural_checkVersion_iff (version : Json) :
    Structural (checkVersion rt (.ofJson version)) ↔
      (PyData.ofJson version).eqInt 1 = true ∨ Json.Fits true rt.nesting version := by
  rw [← PyData.reprAt_isOk_iff rt]
  unfold checkVersion
  split
  · next h => exact iff_of_true (structural_ok ()) (.inl h)
  · next h =>
      rw [structural_bind_iff, or_iff_right h, PyData.repr]
      cases hrepr : PyData.reprAt rt rt.nesting (.ofJson version) with
      | ok text => exact iff_of_true ⟨structural_ok text, fun _ _ => structural_invalid _⟩ ⟨text, rfl⟩
      | error e =>
          refine iff_of_false ?_ (by simp)
          rintro ⟨hstructural, -⟩
          obtain ⟨msg, rfl⟩ := hstructural e rfl
          exact repr_ne_manifestError rt _ version msg hrepr

theorem structural_validate_iff (entries : List (PyData × PyData)) :
    Structural (validateStructure rt entries) ↔
      ((∀ key ∈ requiredTopLevel, (PyData.get? key entries).isSome = true) →
        Structural (checkVersion rt (fieldOf entries (py "schema_version")))) := by
  unfold validateStructure
  simp only [structural_bind_iff, structural_ensure, structural_ensureAll, structural_parseInstant,
    checkResources, checkContributions, structural_checkGroup, ensure_eq_ok, missing_isEmpty, true_and,
    implies_true, and_true]
  exact ⟨fun h hpresent => h () hpresent, fun h _ hpresent => h hpresent⟩

end Errors

end V91Core.Manifest
