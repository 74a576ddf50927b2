import V91Core.Python.Float
import V91Core.Python.Text
import Mathlib.Data.List.Sort

namespace V91Core

open V91Core.Python

-- A value of `json.loads`. A dict keeps its keys in insertion order.
inductive Json where
  | null
  | bool (b : Bool)
  | int (n : Int)
  | float (x : Float)
  | str (s : PyStr)
  | arr (items : List Json)
  | obj (fields : List (PyStr × Json))

namespace Json

@[elab_as_elim]
theorem ind {P : Json → Prop} (null : P .null) (bool : ∀ b, P (.bool b)) (int : ∀ n, P (.int n))
    (float : ∀ x, P (.float x)) (str : ∀ s, P (.str s))
    (arr : ∀ items, (∀ j ∈ items, P j) → P (.arr items))
    (obj : ∀ fields, (∀ f ∈ fields, P f.2) → P (.obj fields)) : ∀ j, P j
  | .null => null
  | .bool b => bool b
  | .int n => int n
  | .float x => float x
  | .str s => str s
  | .arr items => arr items fun j _ => ind null bool int float str arr obj j
  | .obj fields => obj fields fun f _ => ind null bool int float str arr obj f.2
termination_by j => sizeOf j
decreasing_by
  · simp_wf
    have := List.sizeOf_lt_of_mem ‹j ∈ items›
    omega
  · simp_wf
    have := List.sizeOf_lt_of_mem ‹f ∈ fields›
    have : sizeOf f.2 < sizeOf f := by cases f; simp
    omega

section Equality

mutual

def same : Json → Json → Bool
  | .null, .null => true
  | .bool a, .bool b => a = b
  | .int m, .int n => m = n
  | .float x, .float y => x = y
  | .str s, .str t => s = t
  | .arr items, .arr others => sameItems items others
  | .obj fields, .obj others => sameFields fields others
  | _, _ => false

def sameItems : List Json → List Json → Bool
  | [], [] => true
  | j :: items, k :: others => same j k && sameItems items others
  | _, _ => false

def sameFields : List (PyStr × Json) → List (PyStr × Json) → Bool
  | [], [] => true
  | (s, j) :: fields, (t, k) :: others => decide (s = t) && same j k && sameFields fields others
  | _, _ => false

end

theorem same_iff (j k : Json) : same j k = true ↔ j = k := by
  induction j using Json.ind generalizing k with
  | arr items ih =>
      cases k with
      | arr others =>
          rw [same, Json.arr.injEq]
          induction items generalizing others with
          | nil => cases others <;> simp [sameItems]
          | cons j items ihs =>
              cases others with
              | nil => simp [sameItems]
              | cons k others =>
                  have hrest := ihs (fun j hj => ih j (List.mem_cons_of_mem _ hj)) others
                  simp [sameItems, ih j (by simp) k, hrest]
      | _ => simp [same]
  | obj fields ih =>
      cases k with
      | obj others =>
          rw [same, Json.obj.injEq]
          induction fields generalizing others with
          | nil => cases others <;> simp [sameFields]
          | cons f fields ihs =>
              cases others with
              | nil => simp [sameFields]
              | cons g others =>
                  have hrest := ihs (fun j hj => ih j (List.mem_cons_of_mem _ hj)) others
                  simp [sameFields, ih f (by simp) g.2, hrest, Prod.ext_iff]
      | _ => simp [same]
  | _ => cases k <;> simp [same]

instance : DecidableEq Json := fun j k => decidable_of_iff _ (same_iff j k)

end Equality

def isFinite (x : Float) : Bool := (exactDecimal x).isSome

-- `dict[key]`, `dict.get(key)`.
def lookup (key : PyStr) : List (PyStr × Json) → Option Json
  | [] => none
  | (k, v) :: rest => if k = key then some v else lookup key rest

-- `dict[key] = value` keeps the place of an existing key.
def insert (key : PyStr) (value : Json) : List (PyStr × Json) → List (PyStr × Json)
  | [] => [(key, value)]
  | (k, v) :: rest => if k = key then (k, value) :: rest else (k, v) :: insert key value rest

-- `dict.pop(key, None)` leaves these fields.
def erase (key : PyStr) (fields : List (PyStr × Json)) : List (PyStr × Json) :=
  fields.filter fun f => f.1 ≠ key

def dictOf (pairs : List (PyStr × Json)) : List (PyStr × Json) :=
  pairs.foldl (fun fields p => insert p.1 p.2 fields) []

abbrev KeyLe (f g : PyStr × α) : Prop := strLe f.1 g.1 = true

def sortKeys (fields : List (PyStr × α)) : List (PyStr × α) := fields.insertionSort KeyLe

mutual

-- Python's `==` on dicts ignores the order of the keys: two values are the same
-- value when their key-sorted forms agree.
def norm : Json → Json
  | .arr items => .arr (normItems items)
  | .obj fields => .obj (sortKeys (normFields fields))
  | j => j

def normItems : List Json → List Json
  | [] => []
  | j :: items => norm j :: normItems items

def normFields : List (PyStr × Json) → List (PyStr × Json)
  | [] => []
  | (k, v) :: fields => (k, norm v) :: normFields fields

end

mutual

-- No dict repeats a key.
def Wf : Json → Prop
  | .arr items => WfItems items
  | .obj fields => (fields.map Prod.fst).Nodup ∧ WfFields fields
  | _ => True

def WfItems : List Json → Prop
  | [] => True
  | j :: items => Wf j ∧ WfItems items

def WfFields : List (PyStr × Json) → Prop
  | [] => True
  | (_, v) :: fields => Wf v ∧ WfFields fields

end

-- A dict that a caller passes in: its keys are strings and unique.
structure Dict where
  fields : List (PyStr × Json)
  wf : Wf (.obj fields)

def Dict.json (dict : Dict) : Json := .obj dict.fields

def Dict.empty : Dict := ⟨[], ⟨List.nodup_nil, trivial⟩⟩

@[simp] theorem normItems_eq (items : List Json) : normItems items = items.map norm := by
  induction items with
  | nil => rfl
  | cons j items ih => rw [normItems, ih, List.map_cons]

@[simp] theorem normFields_eq (fields : List (PyStr × Json)) :
    normFields fields = fields.map fun f => (f.1, norm f.2) := by
  induction fields with
  | nil => rfl
  | cons f fields ih => rw [normFields, ih, List.map_cons]

@[simp] theorem wfItems_iff (items : List Json) : WfItems items ↔ ∀ j ∈ items, Wf j := by
  induction items with
  | nil => simp [WfItems]
  | cons j items ih => simp [WfItems, ih]

@[simp] theorem wfFields_iff (fields : List (PyStr × Json)) :
    WfFields fields ↔ ∀ f ∈ fields, Wf f.2 := by
  induction fields with
  | nil => simp [WfFields]
  | cons f fields ih => simp [WfFields, ih]

section Sorting

theorem sortKeys_perm (fields : List (PyStr × α)) : (sortKeys fields).Perm fields :=
  List.perm_insertionSort _ _

instance : Std.Total (α := PyStr × α) KeyLe := ⟨fun f g => strLe_total f.1 g.1⟩

instance : IsTrans (PyStr × α) KeyLe := ⟨fun f g h => strLe_trans f.1 g.1 h.1⟩

theorem sortKeys_pairwise (fields : List (PyStr × α)) : (sortKeys fields).Pairwise KeyLe :=
  List.pairwise_insertionSort _ _

-- A function that keeps the keys commutes with sorting.
theorem sortKeys_map (f : PyStr × α → PyStr × β) (hf : ∀ p, (f p).1 = p.1)
    (fields : List (PyStr × α)) : sortKeys (fields.map f) = (sortKeys fields).map f := by
  refine (List.map_insertionSort KeyLe KeyLe f fields fun a _ b _ => ?_).symm
  rw [KeyLe, KeyLe, hf, hf]

theorem sortKeys_sorted (fields : List (PyStr × α)) (h : fields.Pairwise KeyLe) :
    sortKeys fields = fields :=
  h.insertionSort_eq

theorem eq_of_perm_of_sorted (fields others : List (PyStr × α)) (hp : fields.Perm others)
    (hs : fields.Pairwise KeyLe) (ht : others.Pairwise KeyLe)
    (hn : (fields.map Prod.fst).Nodup) : fields = others := by
  refine List.Perm.eq_of_pairwise (fun f g hf hg hfg hgf => ?_) hs ht hp
  exact List.inj_on_of_nodup_map hn hf (hp.mem_iff.mpr hg) (strLe_antisymm _ _ hfg hgf)

end Sorting

section Norm

theorem norm_norm (j : Json) : norm (norm j) = norm j := by
  induction j using ind with
  | arr items ih =>
      simp only [norm, normItems_eq, List.map_map, Json.arr.injEq]
      exact List.map_congr_left ih
  | obj fields ih =>
      simp only [norm, normFields_eq, Json.obj.injEq]
      rw [← sortKeys_map (fun f : PyStr × Json => (f.1, norm f.2)) (fun _ => rfl), List.map_map,
        sortKeys_sorted _ (sortKeys_pairwise _)]
      congr 1
      exact List.map_congr_left fun f hf => Prod.ext rfl (ih f hf)
  | _ => rfl

theorem norm_obj_eq_iff (fields others : List (PyStr × Json)) (hn : (fields.map Prod.fst).Nodup) :
    norm (.obj fields) = norm (.obj others) ↔ (normFields fields).Perm (normFields others) := by
  have hkeys : ((normFields fields).map Prod.fst).Nodup := by
    rwa [normFields_eq, List.map_map]
  rw [norm, norm, Json.obj.injEq]
  constructor
  · intro h
    exact (sortKeys_perm _).symm.trans (h ▸ sortKeys_perm _)
  · intro h
    refine eq_of_perm_of_sorted _ _ ?_ (sortKeys_pairwise _) (sortKeys_pairwise _) ?_
    · exact (sortKeys_perm _).trans (h.trans (sortKeys_perm _).symm)
    · exact (((sortKeys_perm _).map Prod.fst).nodup_iff).mpr hkeys

theorem wf_norm (j : Json) (h : Wf j) : Wf (norm j) := by
  induction j using ind with
  | arr items ih =>
      simp only [norm, normItems_eq, Wf, wfItems_iff, List.forall_mem_map] at h ⊢
      exact fun j hj => ih j hj (h j hj)
  | obj fields ih =>
      simp only [norm, normFields_eq, Wf, wfFields_iff] at h ⊢
      have hp := sortKeys_perm (fields.map fun f => (f.1, norm f.2))
      constructor
      · rw [(hp.map Prod.fst).nodup_iff, List.map_map]
        exact h.1
      · intro f hf
        obtain ⟨g, hg, rfl⟩ := List.mem_map.mp (hp.mem_iff.mp hf)
        exact ih g hg (h.2 g hg)
  | _ => trivial

end Norm

section Fields

theorem lookup_eq_some_iff (key : PyStr) (v : Json) (fields : List (PyStr × Json))
    (hn : (fields.map Prod.fst).Nodup) : lookup key fields = some v ↔ (key, v) ∈ fields := by
  induction fields with
  | nil => simp [lookup]
  | cons f fields ih =>
      obtain ⟨k, w⟩ := f
      simp only [List.map_cons, List.nodup_cons] at hn
      simp only [lookup, List.mem_cons, Prod.mk.injEq]
      split
      · rename_i hk
        subst hk
        constructor
        · intro h
          exact .inl ⟨rfl, (Option.some.inj h).symm⟩
        · rintro (⟨-, rfl⟩ | hmem)
          · rfl
          · exact absurd (List.mem_map_of_mem (f := Prod.fst) hmem) hn.1
      · rename_i hk
        rw [ih hn.2]
        simp [Ne.symm hk]

theorem lookup_perm (key : PyStr) (fields others : List (PyStr × Json))
    (hn : (fields.map Prod.fst).Nodup) (h : fields.Perm others) :
    lookup key fields = lookup key others := by
  have hn' := ((h.map Prod.fst).nodup_iff).mp hn
  ext v
  rw [lookup_eq_some_iff key v fields hn, lookup_eq_some_iff key v others hn', h.mem_iff]

theorem lookup_map (key : PyStr) (g : Json → Json) (fields : List (PyStr × Json)) :
    lookup key (fields.map fun f => (f.1, g f.2)) = (lookup key fields).map g := by
  induction fields with
  | nil => rfl
  | cons f fields ih =>
      simp only [List.map_cons, lookup, ih]
      split <;> rfl

theorem lookup_norm (key : PyStr) (fields : List (PyStr × Json))
    (hn : (fields.map Prod.fst).Nodup) :
    lookup key (sortKeys (normFields fields)) = (lookup key fields).map norm := by
  have hkeys : ((fields.map fun f : PyStr × Json => (f.1, norm f.2)).map Prod.fst).Nodup := by
    rwa [List.map_map]
  rw [normFields_eq, ← lookup_map]
  exact (lookup_perm key _ _ hkeys (sortKeys_perm _).symm).symm

-- Equal values have equal fields.
theorem lookup_eq_of_norm_eq (message other : Dict) (key : PyStr) (h : norm message.json = norm other.json) :
    (lookup key message.fields).map norm = (lookup key other.fields).map norm := by
  rw [← lookup_norm key _ message.wf.1, ← lookup_norm key _ other.wf.1]
  rw [Dict.json, Dict.json, norm, norm] at h
  rw [Json.obj.inj h]

theorem mem_of_lookup (key : PyStr) (v : Json) (fields : List (PyStr × Json))
    (h : lookup key fields = some v) : (key, v) ∈ fields := by
  induction fields with
  | nil => cases h
  | cons f fields ih =>
      obtain ⟨k, w⟩ := f
      simp only [lookup] at h
      split at h
      · rename_i hk
        obtain rfl := Option.some.inj h
        simp [hk]
      · exact List.mem_cons_of_mem _ (ih h)

theorem perm_erase (key : PyStr) (v : Json) (fields : List (PyStr × Json))
    (hn : (fields.map Prod.fst).Nodup) (h : lookup key fields = some v) :
    fields.Perm ((key, v) :: erase key fields) := by
  induction fields with
  | nil => cases h
  | cons f fields ih =>
      obtain ⟨k, w⟩ := f
      simp only [List.map_cons, List.nodup_cons] at hn
      simp only [lookup] at h
      split at h
      · rename_i hk
        subst hk
        obtain rfl := Option.some.inj h
        have hrest : erase k fields = fields := by
          refine List.filter_eq_self.mpr fun f hf => ?_
          have hne : f.1 ≠ k := fun hfk => hn.1 (hfk ▸ List.mem_map_of_mem hf)
          simpa using hne
        rw [erase, List.filter_cons_of_neg (by simp)]
        exact (congrArg ((k, w) :: ·) hrest).symm ▸ List.Perm.refl _
      · rename_i hk
        rw [erase, List.filter_cons_of_pos (by simpa using hk)]
        exact ((ih hn.2 h).cons _).trans (List.Perm.swap _ _ _)

theorem erase_nodup (key : PyStr) (fields : List (PyStr × Json)) (hn : (fields.map Prod.fst).Nodup) :
    ((erase key fields).map Prod.fst).Nodup :=
  hn.sublist (List.filter_sublist.map _)

theorem wf_erase (key : PyStr) (fields : List (PyStr × Json)) (h : Wf (.obj fields)) :
    Wf (.obj (erase key fields)) := by
  simp only [Wf, wfFields_iff] at h ⊢
  exact ⟨erase_nodup key fields h.1, fun f hf => h.2 f (List.mem_of_mem_filter hf)⟩

theorem lookup_erase (key other : PyStr) (fields : List (PyStr × Json)) (h : key ≠ other) :
    lookup key (erase other fields) = lookup key fields := by
  induction fields with
  | nil => rfl
  | cons f fields ih =>
      obtain ⟨k, w⟩ := f
      by_cases hk : k = other
      · rw [erase, List.filter_cons_of_neg (by simp [hk]), lookup, if_neg (hk ▸ h.symm)]
        exact ih
      · rw [erase, List.filter_cons_of_pos (by simp [hk]), lookup, lookup]
        split
        · rfl
        · exact ih

-- Reading a dict back before taking a key out changes nothing else.
theorem norm_erase_norm (key : PyStr) (fields : List (PyStr × Json)) (hn : (fields.map Prod.fst).Nodup) :
    norm (.obj (erase key (sortKeys (normFields fields)))) = norm (.obj (erase key fields)) := by
  have hkeys : ((sortKeys (normFields fields)).map Prod.fst).Nodup := by
    rw [((sortKeys_perm _).map Prod.fst).nodup_iff, normFields_eq, List.map_map]
    exact hn
  rw [norm_obj_eq_iff _ _ (erase_nodup key _ hkeys)]
  have hmap : normFields (erase key (normFields fields)) = normFields (erase key fields) := by
    simp only [normFields_eq, erase, List.filter_map, List.map_map]
    exact List.map_congr_left fun f hf => Prod.ext rfl (norm_norm f.2)
  rw [← hmap, normFields_eq (erase _ _), normFields_eq (erase _ _)]
  exact ((sortKeys_perm _).filter _).map _

theorem norm_erase_congr (key : PyStr) (document other : Dict) (h : norm document.json = norm other.json) :
    norm (.obj (erase key document.fields)) = norm (.obj (erase key other.fields)) := by
  simp only [Dict.json, norm, obj.injEq] at h
  rw [← norm_erase_norm key _ document.wf.1, ← norm_erase_norm key _ other.wf.1, h]

-- A dict is determined by one of its values and the rest.
theorem norm_of_erase (key : PyStr) (v : Json) (fields others : List (PyStr × Json))
    (hn : (fields.map Prod.fst).Nodup) (hn' : (others.map Prod.fst).Nodup)
    (hv : lookup key fields = some v) (hv' : lookup key others = some v)
    (h : norm (.obj (erase key fields)) = norm (.obj (erase key others))) :
    norm (.obj fields) = norm (.obj others) := by
  rw [norm_obj_eq_iff _ _ (erase_nodup key fields hn), normFields_eq, normFields_eq] at h
  rw [norm_obj_eq_iff fields others hn, normFields_eq, normFields_eq]
  have hsplit := (perm_erase key v fields hn hv).map fun f : PyStr × Json => (f.1, norm f.2)
  have hsplit' := (perm_erase key v others hn' hv').map fun f : PyStr × Json => (f.1, norm f.2)
  exact hsplit.trans ((h.cons _).trans hsplit'.symm)

theorem insert_keys (key : PyStr) (v : Json) (fields : List (PyStr × Json)) :
    (insert key v fields).map Prod.fst =
      if key ∈ fields.map Prod.fst then fields.map Prod.fst else fields.map Prod.fst ++ [key] := by
  induction fields with
  | nil => rfl
  | cons f fields ih =>
      obtain ⟨k, w⟩ := f
      by_cases hk : k = key
      · subst hk
        simp [insert]
      · simp only [insert, if_neg hk, List.map_cons, ih, List.mem_cons, Ne.symm hk, false_or]
        split <;> rfl

theorem nodup_insert (key : PyStr) (v : Json) (fields : List (PyStr × Json))
    (hn : (fields.map Prod.fst).Nodup) : ((insert key v fields).map Prod.fst).Nodup := by
  rw [insert_keys]
  split
  · exact hn
  · rename_i hk
    exact List.nodup_append.mpr ⟨hn, by simp, fun a ha b hb => by
      obtain rfl := List.mem_singleton.mp hb
      rintro rfl
      exact hk ha⟩

theorem mem_insert (key : PyStr) (v : Json) (fields : List (PyStr × Json)) (f : PyStr × Json)
    (h : f ∈ insert key v fields) : f = (key, v) ∨ f ∈ fields := by
  induction fields with
  | nil => exact .inl (List.mem_singleton.mp h)
  | cons g fields ih =>
      obtain ⟨k, w⟩ := g
      simp only [insert] at h
      split at h
      · rename_i hk
        subst hk
        exact (List.mem_cons.mp h).imp id (List.mem_cons_of_mem _)
      · rcases List.mem_cons.mp h with rfl | h
        · exact .inr (by simp)
        · exact (ih h).imp id (List.mem_cons_of_mem _)

theorem lookup_insert_self (key : PyStr) (v : Json) (fields : List (PyStr × Json)) :
    lookup key (insert key v fields) = some v := by
  induction fields with
  | nil => simp [insert, lookup]
  | cons f fields ih =>
      obtain ⟨k, w⟩ := f
      by_cases hk : k = key
      · simp [insert, lookup, hk]
      · simp [insert, lookup, hk, ih]

theorem lookup_insert_ne (key other : PyStr) (v : Json) (fields : List (PyStr × Json)) (h : other ≠ key) :
    lookup key (insert other v fields) = lookup key fields := by
  induction fields with
  | nil => simp [insert, lookup, h]
  | cons f fields ih =>
      obtain ⟨k, w⟩ := f
      by_cases hk : k = other
      · subst hk
        simp [insert, lookup, h]
      · simp [insert, lookup, hk, ih]

-- Taking a new key out again.
theorem erase_insert (key : PyStr) (v : Json) (fields : List (PyStr × Json)) (h : lookup key fields = none) :
    erase key (insert key v fields) = fields := by
  induction fields with
  | nil => simp [insert, erase]
  | cons f fields ih =>
      obtain ⟨k, w⟩ := f
      rw [lookup] at h
      split at h
      · cases h
      · rename_i hk
        rw [insert, if_neg hk, erase, List.filter_cons_of_pos (by simpa using hk)]
        exact congrArg ((k, w) :: ·) (ih h)

theorem wf_insert (key : PyStr) (v : Json) (fields : List (PyStr × Json)) (hv : Wf v) (h : Wf (.obj fields)) :
    Wf (.obj (insert key v fields)) := by
  simp only [Wf, wfFields_iff] at h ⊢
  refine ⟨nodup_insert key v fields h.1, fun f hf => ?_⟩
  rcases mem_insert key v fields f hf with rfl | hf
  · exact hv
  · exact h.2 f hf

theorem insert_append (key : PyStr) (v : Json) (fields : List (PyStr × Json))
    (h : key ∉ fields.map Prod.fst) : insert key v fields = fields ++ [(key, v)] := by
  induction fields with
  | nil => rfl
  | cons f fields ih =>
      obtain ⟨k, w⟩ := f
      simp only [List.map_cons, List.mem_cons, not_or] at h
      rw [insert, if_neg (Ne.symm h.1), ih h.2, List.cons_append]

theorem foldl_insert_append (pairs fields : List (PyStr × Json))
    (h : ((fields ++ pairs).map Prod.fst).Nodup) :
    pairs.foldl (fun fields p => insert p.1 p.2 fields) fields = fields ++ pairs := by
  induction pairs generalizing fields with
  | nil => simp
  | cons p pairs ih =>
      have hp : p.1 ∉ fields.map Prod.fst := by
        intro hmem
        rw [List.map_append, List.nodup_append] at h
        exact h.2.2 p.1 hmem p.1 (by simp) rfl
      rw [List.foldl_cons, insert_append p.1 p.2 fields hp, ih _ (by simpa using h)]
      simp

-- Building a dict from pairs without a repeated key changes nothing.
theorem dictOf_eq (pairs : List (PyStr × Json)) (h : (pairs.map Prod.fst).Nodup) :
    dictOf pairs = pairs :=
  foldl_insert_append pairs [] h

theorem dictOf_spec (pairs : List (PyStr × Json)) :
    ((dictOf pairs).map Prod.fst).Nodup ∧ ∀ f ∈ dictOf pairs, f ∈ pairs := by
  suffices h : ∀ fields : List (PyStr × Json), (fields.map Prod.fst).Nodup →
      ((pairs.foldl (fun fields p => insert p.1 p.2 fields) fields).map Prod.fst).Nodup ∧
        ∀ f ∈ pairs.foldl (fun fields p => insert p.1 p.2 fields) fields, f ∈ fields ∨ f ∈ pairs by
    simpa [dictOf] using h [] List.nodup_nil
  induction pairs with
  | nil => intro fields hn; exact ⟨hn, fun f hf => .inl hf⟩
  | cons p pairs ih =>
      intro fields hn
      obtain ⟨hkeys, hmem⟩ := ih _ (nodup_insert p.1 p.2 fields hn)
      refine ⟨hkeys, fun f hf => ?_⟩
      rcases hmem f hf with h | h
      · rcases mem_insert p.1 p.2 fields f h with rfl | h
        · exact .inr (by simp)
        · exact .inl h
      · exact .inr (List.mem_cons_of_mem _ h)

end Fields

section Chars

variable (P : CodePoint → Prop)

mutual

-- Every character of the strings and of the keys of a value has the property.
def AllChars : Json → Prop
  | .str s => ∀ c ∈ s, P c
  | .arr items => AllCharsItems items
  | .obj fields => AllCharsFields fields
  | _ => True

def AllCharsItems : List Json → Prop
  | [] => True
  | j :: items => AllChars j ∧ AllCharsItems items

def AllCharsFields : List (PyStr × Json) → Prop
  | [] => True
  | (k, v) :: fields => (∀ c ∈ k, P c) ∧ AllChars v ∧ AllCharsFields fields

end

@[simp] theorem allCharsItems_iff (items : List Json) :
    AllCharsItems P items ↔ ∀ j ∈ items, AllChars P j := by
  induction items with
  | nil => simp [AllCharsItems]
  | cons j items ih => simp [AllCharsItems, ih]

@[simp] theorem allCharsFields_iff (fields : List (PyStr × Json)) :
    AllCharsFields P fields ↔ ∀ f ∈ fields, (∀ c ∈ f.1, P c) ∧ AllChars P f.2 := by
  induction fields with
  | nil => simp [AllCharsFields]
  | cons f fields ih => simp [AllCharsFields, ih, and_assoc]

theorem allChars_of_forall (h : ∀ c, P c) (j : Json) : AllChars P j := by
  induction j using ind with
  | str s => exact fun c _ => h c
  | arr items ih => exact (allCharsItems_iff P items).mpr ih
  | obj fields ih => exact (allCharsFields_iff P fields).mpr fun f hf => ⟨fun c _ => h c, ih f hf⟩
  | _ => trivial

theorem AllChars.mono {P Q : CodePoint → Prop} (h : ∀ c, P c → Q c) (j : Json) (hj : AllChars P j) :
    AllChars Q j := by
  induction j using ind with
  | str s => exact fun c hc => h c (hj c hc)
  | arr items ih =>
      rw [AllChars, allCharsItems_iff] at hj ⊢
      exact fun j hmem => ih j hmem (hj j hmem)
  | obj fields ih =>
      rw [AllChars, allCharsFields_iff] at hj ⊢
      exact fun f hf => ⟨fun c hc => h c ((hj f hf).1 c hc), ih f hf (hj f hf).2⟩
  | _ => trivial

end Chars

end Json

end V91Core
