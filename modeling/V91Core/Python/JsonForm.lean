import V91Core.Json.Chars
import V91Core.Json.Loads
import V91Core.Python.Data

namespace V91Core.Python

namespace PyData

@[elab_as_elim]
theorem ind {P : PyData → Prop} (none : P .none) (bool : ∀ b, P (.bool b)) (int : ∀ n, P (.int n))
    (float : ∀ x, P (.float x)) (str : ∀ s, P (.str s)) (bytes : ∀ bs, P (.bytes bs))
    (list : ∀ items, (∀ v ∈ items, P v) → P (.list items)) (tuple : ∀ items, (∀ v ∈ items, P v) → P (.tuple items))
    (dict : ∀ entries, (∀ e ∈ entries, P e.2) → P (.dict entries)) (foreign : ∀ object, P (.foreign object)) :
    ∀ v, P v
  | .none => none
  | .bool b => bool b
  | .int n => int n
  | .float x => float x
  | .str s => str s
  | .bytes bs => bytes bs
  | .list items => list items fun v _ => ind none bool int float str bytes list tuple dict foreign v
  | .tuple items => tuple items fun v _ => ind none bool int float str bytes list tuple dict foreign v
  | .dict entries => dict entries fun e _ => ind none bool int float str bytes list tuple dict foreign e.2
  | .foreign object => foreign object
termination_by v => sizeOf v
decreasing_by
  · simp_wf
    have := List.sizeOf_lt_of_mem ‹v ∈ items›
    omega
  · simp_wf
    have := List.sizeOf_lt_of_mem ‹v ∈ items›
    omega
  · simp_wf
    have := List.sizeOf_lt_of_mem ‹e ∈ entries›
    have : sizeOf e.2 < sizeOf e := by cases e; simp
    omega

section Keys

-- The text that a key becomes in JSON.
def keyName : PyData → PyStr
  | .str s => s
  | .none => py "null"
  | .bool b => if b then py "true" else py "false"
  | .int n => intText n
  | .float x => Json.floatText x
  | _ => []

-- Printable ASCII that JSON does not escape.
def isPlain (c : CodePoint) : Bool := 0x20 ≤ c.val && c.val < 0x7F && c ≠ cp '"' && c ≠ cp '\\'

theorem encodeString_plain (ascii : Bool) (s : PyStr) (h : ∀ c ∈ s, isPlain c = true) :
    Json.encodeString ascii s = cp '"' :: (s ++ [cp '"']) := by
  have hchar : ∀ c ∈ s, Json.escapeChar ascii c = [c] := by
    intro c hc
    have hplain := h c hc
    simp only [isPlain, Bool.and_eq_true, decide_eq_true_eq] at hplain
    obtain ⟨⟨⟨hlo, hhi⟩, hquote⟩, hslash⟩ := hplain
    have hshort : Json.shortEscapes.find? (·.1 = c) = Option.none := by
      rw [List.find?_eq_none]
      intro p hp hpc
      have hall : (Json.shortEscapes.all fun p => p.1 = cp '"' ∨ p.1 = cp '\\' ∨ p.1.val < 0x20) = true := by decide
      have hp := List.all_eq_true.mp hall p hp
      rw [decide_eq_true_eq] at hpc hp
      rw [hpc] at hp
      rcases hp with hp | hp | hp
      · exact hquote hp
      · exact hslash hp
      · omega
    rw [Json.escapeChar, hshort]
    dsimp only
    rw [if_neg (by omega), if_neg (by omega)]
  rw [Json.encodeString, List.flatMap_congr hchar, List.flatMap_singleton']

theorem isPlain_of_number (c : CodePoint) (h : isNumberChar c = true) : isPlain c = true := by
  simp only [isNumberChar, CodePoint.isDigit, Bool.or_eq_true, Bool.and_eq_true, decide_eq_true_eq] at h
  rcases h with ((((h | rfl) | rfl) | rfl) | rfl) | rfl
  · simp only [isPlain, Bool.and_eq_true, decide_eq_true_eq]
    refine ⟨⟨⟨by omega, by omega⟩, ?_⟩, ?_⟩ <;>
      · rintro rfl
        revert h
        decide
  all_goals decide

theorem plain_of_scan (s : PyStr) (n : NumberText) (h : scanNumber s = some (n, [])) : ∀ c ∈ s, isPlain c = true := by
  obtain ⟨number, rfl, -, hchars⟩ := scanNumber_chars s [] n h
  rw [List.append_nil]
  exact fun c hc => isPlain_of_number c (hchars c hc)

theorem scan_intText (n : Int) : ∃ t, scanNumber (intText n) = some (t, []) ∧ t.isInt = true ∧ t.toInt = n := by
  have hscan := scanNumber_intText n [] trivial
  rw [List.append_nil] at hscan
  exact ⟨_, hscan, rfl, toInt_intText n⟩

theorem scan_floatText (x : Float) (h : Json.isFinite x = true) :
    ∃ t, scanNumber (Json.floatText x) = some (t, []) ∧ t.isInt = false ∧ t.toFloat = x := by
  obtain ⟨d, hd⟩ := Option.isSome_iff_exists.mp h
  have htext : Json.floatText x = finiteRepr x d := by rw [Json.floatText, hd]
  rw [htext]
  exact finiteRepr_scan x d hd

-- A key that strict JSON can write.
def IsKey : PyData → Prop
  | .str _ | .none | .bool _ => True
  | .int n => (natText n.natAbs).length ≤ Json.maxIntDigits
  | .float x => Json.isFinite x = true
  | _ => False

theorem keyText_eq (st : Json.Style) (k : PyData) (h : k.IsKey) :
    keyText st k = .ok (Json.encodeString st.ensureAscii (keyName k)) := by
  cases k with
  | str s => rfl
  | none =>
      rw [keyText, keyName, encodeString_plain _ _ (List.all_eq_true.mp (by decide))]
      rfl
  | bool b =>
      cases b
      · rw [keyText, keyName, encodeString_plain _ _ (List.all_eq_true.mp (by decide))]
        rfl
      · rw [keyText, keyName, encodeString_plain _ _ (List.all_eq_true.mp (by decide))]
        rfl
  | int n =>
      obtain ⟨t, ht, -⟩ := scan_intText n
      have hdigits : (natText n.natAbs).length ≤ Json.maxIntDigits := h
      rw [keyText, keyName, intRepr, if_pos hdigits, encodeString_plain _ _ (plain_of_scan _ t ht)]
      rfl
  | float x =>
      obtain ⟨t, ht, -⟩ := scan_floatText x h
      have hfinite : (st.allowNan || Json.isFinite x) = true := by rw [show Json.isFinite x = true from h, Bool.or_true]
      rw [keyText, keyName, if_pos hfinite, encodeString_plain _ _ (plain_of_scan _ t ht)]
  | _ => exact h.elim

theorem isKey_of_keyText (st : Json.Style) (hst : st.allowNan = false) (k : PyData) (text : PyStr)
    (h : keyText st k = .ok text) : k.IsKey := by
  cases k with
  | int n =>
      rw [keyText, intRepr] at h
      split at h
      · next hn => exact hn
      · cases h
  | float x =>
      rw [keyText, hst] at h
      split at h
      · next hx => simpa [IsKey] using hx
      · cases h
  | str s => trivial
  | none => trivial
  | bool b => trivial
  | _ => cases h

-- The keys of one dict that compare have different names.
theorem keyName_injective_number (j k : PyData) (hj : j.IsKey) (hk : k.IsKey)
    (hjn : j.isBool = true ∨ j.number?.isSome = true) (hkn : k.isBool = true ∨ k.number?.isSome = true)
    (h : keyName j = keyName k) : j = k := by
  have hscan : ∀ v : PyData, v.IsKey → v.isBool = true ∨ v.number?.isSome = true → (∃ b, v = .bool b) ∨
      ∃ t, scanNumber (keyName v) = some (t, []) ∧ v = if t.isInt then .int t.toInt else .float t.toFloat := by
    intro v hv hn
    cases v with
    | bool b => exact .inl ⟨b, rfl⟩
    | int n =>
        obtain ⟨t, ht, hint, hvalue⟩ := scan_intText n
        exact .inr ⟨t, ht, by rw [if_pos hint, hvalue]⟩
    | float x =>
        obtain ⟨t, ht, hint, hvalue⟩ := scan_floatText x hv
        exact .inr ⟨t, ht, by rw [hint, hvalue]; rfl⟩
    | _ => rcases hn with hn | hn <;> cases hn
  have hbool : ∀ (b : Bool) (t : NumberText), scanNumber (keyName (.bool b)) ≠ some (t, []) := by
    intro b t ht
    cases b <;> cases ht
  rcases hscan j hj hjn with ⟨a, rfl⟩ | ⟨s, hs, rfl⟩
  · rcases hscan k hk hkn with ⟨b, rfl⟩ | ⟨t, ht, rfl⟩
    · have hne : py "true" ≠ py "false" := by decide
      cases a <;> cases b
      · rfl
      · exact absurd h.symm hne
      · exact absurd h hne
      · rfl
    · rw [← h] at ht
      exact absurd ht (hbool a t)
  · rcases hscan k hk hkn with ⟨b, rfl⟩ | ⟨t, ht, rfl⟩
    · rw [h] at hs
      exact absurd hs (hbool b s)
    · rw [h, ht] at hs
      obtain ⟨rfl, -⟩ := Prod.mk.inj (Option.some.inj hs)
      rfl

end Keys

section Forms

mutual

-- What `json.loads` returns for the text of a value: names for keys, and lists for tuples.
def asJson : PyData → Json
  | .none => .null
  | .bool b => .bool b
  | .int n => .int n
  | .float x => .float x
  | .str s => .str s
  | .list items | .tuple items => .arr (asItems items)
  | .dict entries => .obj (asFields entries)
  | .bytes _ | .foreign _ => .null

def asItems : List PyData → List Json
  | [] => []
  | v :: items => asJson v :: asItems items

def asFields : List (PyData × PyData) → List (PyStr × Json)
  | [] => []
  | (k, v) :: entries => (keyName k, asJson v) :: asFields entries

end

-- Entries under their names.
def named (entries : List (PyData × α)) : List (PyStr × α) := entries.map fun e => (keyName e.1, e.2)

def sortedObject (entries : List (PyData × Json)) : Json :=
  match sortEntries entries with
  | .ok sorted => .obj (named sorted)
  | .error _ => .null

mutual

-- The same value with every dict in the order of its own keys.
def sortedJson : PyData → Json
  | .none => .null
  | .bool b => .bool b
  | .int n => .int n
  | .float x => .float x
  | .str s => .str s
  | .list items | .tuple items => .arr (sortedItems items)
  | .dict entries => sortedObject (sortedValues entries)
  | .bytes _ | .foreign _ => .null

def sortedItems : List PyData → List Json
  | [] => []
  | v :: items => sortedJson v :: sortedItems items

def sortedValues : List (PyData × PyData) → List (PyData × Json)
  | [] => []
  | (k, v) :: entries => (k, sortedJson v) :: sortedValues entries

end

mutual

-- In every dict, the order of the keys is the order of their names.
def InOrder : PyData → Prop
  | .list items | .tuple items => InOrderItems items
  | .dict entries =>
      (∃ sorted, sortEntries entries = .ok sorted ∧ (named sorted).Pairwise Json.KeyLe) ∧ InOrderEntries entries
  | _ => True

def InOrderItems : List PyData → Prop
  | [] => True
  | v :: items => InOrder v ∧ InOrderItems items

def InOrderEntries : List (PyData × PyData) → Prop
  | [] => True
  | (_, v) :: entries => InOrder v ∧ InOrderEntries entries

end

mutual

-- No dict has a key twice.
def UniqueKeys : PyData → Prop
  | .list items | .tuple items => UniqueItems items
  | .dict entries => (entries.map Prod.fst).Nodup ∧ UniqueEntries entries
  | _ => True

def UniqueItems : List PyData → Prop
  | [] => True
  | v :: items => UniqueKeys v ∧ UniqueItems items

def UniqueEntries : List (PyData × PyData) → Prop
  | [] => True
  | (_, v) :: entries => UniqueKeys v ∧ UniqueEntries entries

end

@[simp] theorem asItems_eq (items : List PyData) : asItems items = items.map asJson := by
  induction items with
  | nil => rfl
  | cons v items ih => rw [asItems, ih, List.map_cons]

@[simp] theorem asFields_eq (entries : List (PyData × PyData)) :
    asFields entries = named (entries.map fun e => (e.1, asJson e.2)) := by
  induction entries with
  | nil => rfl
  | cons e entries ih =>
      rw [asFields, ih]
      rfl

@[simp] theorem sortedItems_eq (items : List PyData) : sortedItems items = items.map sortedJson := by
  induction items with
  | nil => rfl
  | cons v items ih => rw [sortedItems, ih, List.map_cons]

@[simp] theorem sortedValues_eq (entries : List (PyData × PyData)) :
    sortedValues entries = entries.map fun e => (e.1, sortedJson e.2) := by
  induction entries with
  | nil => rfl
  | cons e entries ih => rw [sortedValues, ih, List.map_cons]

@[simp] theorem inOrderItems_iff (items : List PyData) : InOrderItems items ↔ ∀ v ∈ items, InOrder v := by
  induction items with
  | nil => simp [InOrderItems]
  | cons v items ih => simp [InOrderItems, ih]

@[simp] theorem inOrderEntries_iff (entries : List (PyData × PyData)) :
    InOrderEntries entries ↔ ∀ e ∈ entries, InOrder e.2 := by
  induction entries with
  | nil => simp [InOrderEntries]
  | cons e entries ih => simp [InOrderEntries, ih]

@[simp] theorem uniqueItems_iff (items : List PyData) : UniqueItems items ↔ ∀ v ∈ items, UniqueKeys v := by
  induction items with
  | nil => simp [UniqueItems]
  | cons v items ih => simp [UniqueItems, ih]

@[simp] theorem uniqueEntries_iff (entries : List (PyData × PyData)) :
    UniqueEntries entries ↔ ∀ e ∈ entries, UniqueKeys e.2 := by
  induction entries with
  | nil => simp [UniqueEntries]
  | cons e entries ih => simp [UniqueEntries, ih]

end Forms

section Sorting

theorem strKeys_map_value (g : α → β) (entries : List (PyData × α)) :
    strKeys (entries.map fun e => (e.1, g e.2)) = (strKeys entries).map (List.map fun f => (f.1, g f.2)) := by
  induction entries with
  | nil => rfl
  | cons e entries ih =>
      obtain ⟨k, a⟩ := e
      cases k with
      | str s =>
          rw [List.map_cons, strKeys, strKeys, ih]
          cases strKeys entries <;> rfl
      | _ => rfl

theorem numKeys_map_value (g : α → β) (entries : List (PyData × α)) :
    numKeys (entries.map fun e => (e.1, g e.2)) =
      (numKeys entries).map (List.map fun f => (f.1, f.2.1, g f.2.2)) := by
  induction entries with
  | nil => rfl
  | cons e entries ih =>
      obtain ⟨k, a⟩ := e
      cases k with
      | int n | float x | bool b =>
          rw [List.map_cons, numKeys, numKeys, ih]
          cases numKeys entries <;> rfl
      | _ => rfl

-- Sorting looks at the keys alone.
theorem sortEntries_map (g : α → β) (entries : List (PyData × α)) :
    sortEntries (entries.map fun e => (e.1, g e.2)) =
      (sortEntries entries).map (List.map fun e => (e.1, g e.2)) := by
  rw [sortEntries, sortEntries, strKeys_map_value, numKeys_map_value, List.length_map]
  cases strKeys entries with
  | some fields =>
      have hsort := Json.sortKeys_map (fun f : PyStr × α => (f.1, g f.2)) (fun _ => rfl) fields
      simp only [Option.map_some, hsort, Except.map, List.map_map]
      rfl
  | none =>
      cases numKeys entries with
      | some fields =>
          have hsort := List.map_insertionSort (fun f h : PyNum × PyData × α => f.1.le h.1 = true)
            (fun f h : PyNum × PyData × β => f.1.le h.1 = true) (fun f => (f.1, f.2.1, g f.2.2)) fields
            fun _ _ _ _ => Iff.rfl
          simp only [Option.map_none, Option.map_some, ← hsort, Except.map, List.map_map]
          rfl
      | none =>
          dsimp only [Option.map_none]
          split <;> rfl

theorem sortEntries_perm (entries sorted : List (PyData × α)) (h : sortEntries entries = .ok sorted) :
    sorted.Perm entries := by
  have hstyle : orderEntries ⟨false, true, false, false⟩ entries = .ok sorted := by
    rw [orderEntries, if_pos rfl]
    exact h
  exact orderEntries_perm _ _ _ hstyle

theorem numKeys_number (entries : List (PyData × α)) (fields : List (PyNum × PyData × α))
    (h : numKeys entries = some fields) : ∀ e ∈ entries, e.1.isBool = true ∨ e.1.number?.isSome = true := by
  induction entries generalizing fields with
  | nil => simp
  | cons e entries ih =>
      obtain ⟨k, a⟩ := e
      cases k with
      | bool b =>
          obtain ⟨rest, hrest, -⟩ := Option.map_eq_some_iff.mp h
          exact List.forall_mem_cons.mpr ⟨.inl rfl, ih rest hrest⟩
      | int n | float x =>
          obtain ⟨rest, hrest, -⟩ := Option.map_eq_some_iff.mp h
          exact List.forall_mem_cons.mpr ⟨.inr rfl, ih rest hrest⟩
      | _ => cases h

-- Keys that sort together have names of their own.
theorem named_nodup (entries sorted : List (PyData × α)) (h : sortEntries entries = .ok sorted)
    (hunique : (entries.map Prod.fst).Nodup) (hkeys : ∀ e ∈ entries, e.1.IsKey) :
    ((named entries).map Prod.fst).Nodup := by
  have hnames : (named entries).map Prod.fst = (entries.map Prod.fst).map keyName := by
    rw [named, List.map_map, List.map_map]
    rfl
  rw [hnames]
  unfold sortEntries at h
  split at h
  · next fields hstr =>
      apply List.Nodup.map_on _ hunique
      intro j hj k hk hjk
      rw [strKeys_eq_some entries fields hstr, List.map_map] at hj hk
      obtain ⟨f, -, rfl⟩ := List.mem_map.mp hj
      obtain ⟨g, -, rfl⟩ := List.mem_map.mp hk
      exact congrArg PyData.str hjk
  · next fields _ hnum =>
      apply List.Nodup.map_on _ hunique
      intro j hj k hk hjk
      obtain ⟨e, he, rfl⟩ := List.mem_map.mp hj
      obtain ⟨f, hf, rfl⟩ := List.mem_map.mp hk
      have hnumber := numKeys_number entries fields hnum
      exact keyName_injective_number _ _ (hkeys e he) (hkeys f hf) (hnumber e he) (hnumber f hf) hjk
  · split at h
    · next hlength =>
        match entries, hlength with
        | [], _ => exact List.nodup_nil
        | [e], _ => exact List.nodup_singleton _
    · cases h

end Sorting

section Texts

theorem sequence_ok (results : List (Except ε α)) (as : List α) (h : Json.sequence results = .ok as) (r : Except ε α)
    (hr : r ∈ results) : ∃ a, r = .ok a :=
  (Json.sequence_isOk_iff results).mp ⟨as, h⟩ r hr

mutual

-- What strict JSON can write with sorted keys.
def Writable : PyData → Prop
  | .float x => Json.isFinite x = true
  | .list items | .tuple items => WritableItems items
  | .dict entries =>
      (∃ sorted, sortEntries entries = .ok sorted) ∧ (∀ e ∈ entries, e.1.IsKey) ∧ WritableEntries entries
  | .bytes _ | .foreign _ => False
  | _ => True

def WritableItems : List PyData → Prop
  | [] => True
  | v :: items => Writable v ∧ WritableItems items

def WritableEntries : List (PyData × PyData) → Prop
  | [] => True
  | (_, v) :: entries => Writable v ∧ WritableEntries entries

end

@[simp] theorem writableItems_iff (items : List PyData) : WritableItems items ↔ ∀ v ∈ items, Writable v := by
  induction items with
  | nil => simp [WritableItems]
  | cons v items ih => simp [WritableItems, ih]

@[simp] theorem writableEntries_iff (entries : List (PyData × PyData)) :
    WritableEntries entries ↔ ∀ e ∈ entries, Writable e.2 := by
  induction entries with
  | nil => simp [WritableEntries]
  | cons e entries ih => simp [WritableEntries, ih]

theorem writable_of_dumpsAt (st : Json.Style) (hsort : st.sortKeys = true) (hnan : st.allowNan = false) (limit : Nat)
    (v : PyData) (text : PyStr) (h : dumpsAt st limit v = .ok text) : Writable v := by
  have hitems : ∀ (items : List PyData) limit texts,
      (∀ v ∈ items, ∀ limit text, dumpsAt st limit v = .ok text → Writable v) →
      Json.sequence (dumpsItems st limit items) = .ok texts → WritableItems items := by
    intro items limit texts ih hseq
    rw [dumpsItems_eq] at hseq
    rw [writableItems_iff]
    intro v hv
    obtain ⟨text, htext⟩ := sequence_ok _ _ hseq _ (List.mem_map_of_mem hv)
    exact ih v hv limit text htext
  induction v using PyData.ind generalizing limit text with
  | float x =>
      rw [dumpsAt, hnan] at h
      split at h
      · next hx => simpa [Writable] using hx
      · cases h
  | list items ih | tuple items ih =>
      cases limit with
      | zero => cases h
      | succ limit =>
          rw [dumpsAt] at h
          obtain ⟨texts, htexts, -⟩ := Json.map_eq_ok _ _ _ h
          exact hitems items limit texts ih htexts
  | dict entries ih =>
      cases limit with
      | zero => cases h
      | succ limit =>
          rw [dumpsAt, dumpsEntries_eq, orderEntries, if_pos hsort, sortEntries_map] at h
          obtain ⟨ordered, hordered, h⟩ := (bind_eq_ok _ _ _).mp h
          obtain ⟨sorted, hsorted, rfl⟩ := Json.map_eq_ok _ _ _ hordered
          obtain ⟨texts, htexts, -⟩ := (bind_eq_ok _ _ _).mp h
          have hentry : ∀ e ∈ entries, ∃ key value, keyText st e.1 = .ok key ∧ dumpsAt st limit e.2 = .ok value := by
            intro e he
            have hmem := (sortEntries_perm entries sorted hsorted).mem_iff.mpr he
            obtain ⟨line, hline⟩ := sequence_ok _ _ htexts _ (List.mem_map_of_mem (List.mem_map_of_mem hmem))
            obtain ⟨key, hkey, hline⟩ := (bind_eq_ok _ _ _).mp hline
            obtain ⟨value, hvalue, -⟩ := (bind_eq_ok _ _ _).mp hline
            exact ⟨key, value, hkey, hvalue⟩
          refine ⟨⟨sorted, hsorted⟩, ?_, (writableEntries_iff _).mpr ?_⟩
          · intro e he
            obtain ⟨key, -, hkey, -⟩ := hentry e he
            exact isKey_of_keyText st hnan e.1 key hkey
          · intro e he
            obtain ⟨-, value, -, hvalue⟩ := hentry e he
            exact ih e he limit value hvalue
  | bytes bs => cases h
  | foreign object => cases h
  | _ => trivial

theorem entryText_eq (st : Json.Style) (k : PyData) (hk : k.IsKey) (r : Except Json.EncodeError PyStr) :
    entryText st (k, r.mapError encodeFailure) = (Json.fieldText st (keyName k, r)).mapError encodeFailure := by
  rw [entryText, keyText_eq st k hk]
  cases r <;> rfl

variable (st : Json.Style) (form : PyData → Json)

-- The texts of the values of a dict make up the text of the object with its names.
theorem dumpsAt_entries (limit : Nat) (entries ordered : List (PyData × PyData))
    (horder : orderEntries st (entries.map fun e => (e.1, dumpsAt st limit e.2)) =
      .ok (ordered.map fun e => (e.1, dumpsAt st limit e.2)))
    (hkeys : ∀ e ∈ ordered, e.1.IsKey)
    (hvalues : ∀ e ∈ ordered, dumpsAt st limit e.2 =
      (Json.encode { st with sortKeys := false } limit (form e.2)).mapError encodeFailure) :
    dumpsAt st (limit + 1) (.dict entries) =
      (Json.encode { st with sortKeys := false } (limit + 1)
        (.obj (named (ordered.map fun e => (e.1, form e.2))))).mapError encodeFailure := by
  have htexts : (ordered.map fun e => (e.1, dumpsAt st limit e.2)).map (entryText st) =
      ((ordered.map fun e => (keyName e.1, Json.encode { st with sortKeys := false } limit (form e.2))).map
        (Json.fieldText { st with sortKeys := false })).map (Except.mapError encodeFailure) := by
    rw [List.map_map, List.map_map, List.map_map]
    refine List.map_congr_left fun e he => ?_
    have hentry := entryText_eq st e.1 (hkeys e he) (Json.encode { st with sortKeys := false } limit (form e.2))
    rw [← hvalues e he] at hentry
    exact hentry
  have hfields : (named (ordered.map fun e => (e.1, form e.2))).map
      (fun f => (f.1, Json.encode { st with sortKeys := false } limit f.2)) =
      ordered.map fun e => (keyName e.1, Json.encode { st with sortKeys := false } limit (form e.2)) := by
    rw [named, List.map_map, List.map_map]
    rfl
  rw [dumpsAt, dumpsEntries_eq, horder, Json.encode, Json.encodeFields_eq, hfields]
  change (Json.sequence _ >>= _) = _
  rw [htexts, sequence_mapError]
  simp only [Bool.false_eq_true, if_false]
  cases Json.sequence ((ordered.map fun e =>
    (keyName e.1, Json.encode { st with sortKeys := false } limit (form e.2))).map
      (Json.fieldText { st with sortKeys := false })) <;> rfl

theorem dumpsAt_items (limit : Nat) (items : List PyData)
    (hvalues : ∀ v ∈ items, dumpsAt st limit v =
      (Json.encode { st with sortKeys := false } limit (form v)).mapError encodeFailure) :
    dumpsAt st (limit + 1) (.list items) =
      (Json.encode { st with sortKeys := false } (limit + 1) (.arr (items.map form))).mapError encodeFailure := by
  have htexts : items.map (dumpsAt st limit) =
      ((items.map form).map (Json.encode { st with sortKeys := false } limit)).map (Except.mapError encodeFailure) := by
    rw [List.map_map, List.map_map]
    exact List.map_congr_left hvalues
  rw [dumpsAt, dumpsItems_eq, htexts, Json.encode, Json.encodeItems_eq, sequence_mapError, map_mapError]
  rfl

-- What is not a container is written alike.
theorem dumpsAt_atom (limit : Nat) (j : Json) (h : Json.norm j = j) :
    dumpsAt st limit (ofJson j) = (Json.encode { st with sortKeys := false } limit j).mapError encodeFailure := by
  rw [dumpsAt_ofJson, Json.encode_order, Json.order_atom st j h]

-- Unsorted, a value is written like its form.
theorem dumpsAt_asJson (hsort : st.sortKeys = false) (limit : Nat) (v : PyData) (hv : Writable v) :
    dumpsAt st limit v =
      (Json.encode { st with sortKeys := false } limit (asJson v)).mapError encodeFailure := by
  induction v using PyData.ind generalizing limit with
  | none => exact dumpsAt_atom st limit .null rfl
  | bool b => exact dumpsAt_atom st limit (.bool b) rfl
  | int n => exact dumpsAt_atom st limit (.int n) rfl
  | float x => exact dumpsAt_atom st limit (.float x) rfl
  | str s => exact dumpsAt_atom st limit (.str s) rfl
  | list items ih | tuple items ih =>
      have hitems := (writableItems_iff items).mp hv
      cases limit with
      | zero => rfl
      | succ limit =>
          rw [asJson, asItems_eq]
          exact dumpsAt_items st asJson limit items fun v hmem => ih v hmem limit (hitems v hmem)
  | dict entries ih =>
      obtain ⟨-, hkeys, hvalues⟩ := hv
      have hvalues := (writableEntries_iff entries).mp hvalues
      cases limit with
      | zero => rfl
      | succ limit =>
          rw [asJson, asFields_eq]
          refine dumpsAt_entries st asJson limit entries entries ?_ hkeys fun e he => ih e he limit (hvalues e he)
          rw [orderEntries, if_neg (by rw [hsort]; decide)]
  | bytes bs => exact hv.elim
  | foreign object => exact hv.elim

theorem sortedJson_dict (entries sorted : List (PyData × PyData)) (h : sortEntries entries = .ok sorted) :
    sortedJson (.dict entries) = .obj (named (sorted.map fun e => (e.1, sortedJson e.2))) := by
  rw [sortedJson, sortedValues_eq, sortedObject, sortEntries_map, h]
  rfl

-- Sorted, it is written like its form with every dict in the order of its keys.
theorem dumpsAt_sortedJson (hsort : st.sortKeys = true) (limit : Nat) (v : PyData) (hv : Writable v) :
    dumpsAt st limit v =
      (Json.encode { st with sortKeys := false } limit (sortedJson v)).mapError encodeFailure := by
  induction v using PyData.ind generalizing limit with
  | none => exact dumpsAt_atom st limit .null rfl
  | bool b => exact dumpsAt_atom st limit (.bool b) rfl
  | int n => exact dumpsAt_atom st limit (.int n) rfl
  | float x => exact dumpsAt_atom st limit (.float x) rfl
  | str s => exact dumpsAt_atom st limit (.str s) rfl
  | list items ih | tuple items ih =>
      have hitems := (writableItems_iff items).mp hv
      cases limit with
      | zero => rfl
      | succ limit =>
          rw [sortedJson, sortedItems_eq]
          exact dumpsAt_items st sortedJson limit items fun v hmem => ih v hmem limit (hitems v hmem)
  | dict entries ih =>
      obtain ⟨⟨sorted, hsorted⟩, hkeys, hvalues⟩ := hv
      have hvalues := (writableEntries_iff entries).mp hvalues
      have hmem := fun e => (sortEntries_perm entries sorted hsorted).mem_iff (a := e)
      cases limit with
      | zero =>
          rw [sortedJson_dict entries sorted hsorted]
          rfl
      | succ limit =>
          rw [sortedJson_dict entries sorted hsorted]
          refine dumpsAt_entries st sortedJson limit entries sorted ?_ (fun e he => hkeys e ((hmem e).mp he))
            fun e he => ih e ((hmem e).mp he) limit (hvalues e ((hmem e).mp he))
          rw [orderEntries, if_pos hsort, sortEntries_map, hsorted]
          rfl
  | bytes bs => exact hv.elim
  | foreign object => exact hv.elim

end Texts

section Order

theorem names_map_value (g : α → β) (entries : List (PyData × α)) :
    (named (entries.map fun e => (e.1, g e.2))).map Prod.fst = (named entries).map Prod.fst := by
  rw [named, named, List.map_map, List.map_map, List.map_map]
  rfl

theorem forall_named (p : PyStr × α → Prop) (entries : List (PyData × α)) :
    (∀ f ∈ named entries, p f) ↔ ∀ e ∈ entries, p (keyName e.1, e.2) := by
  rw [named, List.forall_mem_map]

-- The order of the names does not depend on the values, either.
theorem ordered_map_value (g : α → β) (entries : List (PyData × α)) :
    (named (entries.map fun e => (e.1, g e.2))).Pairwise Json.KeyLe ↔ (named entries).Pairwise Json.KeyLe := by
  rw [named, named, List.pairwise_map, List.pairwise_map, List.pairwise_map]

theorem named_perm (entries others : List (PyData × α)) (h : entries.Perm others) :
    (named entries).Perm (named others) :=
  h.map _

theorem wf_asJson (v : PyData) (hv : Writable v) (hu : UniqueKeys v) : Json.Wf (asJson v) := by
  induction v using PyData.ind with
  | list items ih | tuple items ih =>
      have hitems := (writableItems_iff items).mp hv
      have hunique := (uniqueItems_iff items).mp hu
      rw [asJson, asItems_eq, Json.Wf, Json.wfItems_iff, List.forall_mem_map]
      exact fun v hmem => ih v hmem (hitems v hmem) (hunique v hmem)
  | dict entries ih =>
      obtain ⟨⟨sorted, hsorted⟩, hkeys, hvalues⟩ := hv
      have hvalues := (writableEntries_iff entries).mp hvalues
      have hunique := (uniqueEntries_iff entries).mp hu.2
      rw [asJson, asFields_eq, Json.Wf, Json.wfFields_iff, names_map_value, forall_named, List.forall_mem_map]
      refine ⟨named_nodup entries sorted hsorted hu.1 hkeys, fun e he => ?_⟩
      exact ih e he (hvalues e he) (hunique e he)
  | _ => trivial

theorem wf_sortedJson (v : PyData) (hv : Writable v) (hu : UniqueKeys v) : Json.Wf (sortedJson v) := by
  induction v using PyData.ind with
  | list items ih | tuple items ih =>
      have hitems := (writableItems_iff items).mp hv
      have hunique := (uniqueItems_iff items).mp hu
      rw [sortedJson, sortedItems_eq, Json.Wf, Json.wfItems_iff, List.forall_mem_map]
      exact fun v hmem => ih v hmem (hitems v hmem) (hunique v hmem)
  | dict entries ih =>
      obtain ⟨⟨sorted, hsorted⟩, hkeys, hvalues⟩ := hv
      have hvalues := (writableEntries_iff entries).mp hvalues
      have hunique := (uniqueEntries_iff entries).mp hu.2
      have hperm := sortEntries_perm entries sorted hsorted
      rw [sortedJson_dict entries sorted hsorted, Json.Wf, Json.wfFields_iff, names_map_value, forall_named,
        List.forall_mem_map]
      constructor
      · rw [((named_perm _ _ hperm).map Prod.fst).nodup_iff]
        exact named_nodup entries sorted hsorted hu.1 hkeys
      · intro e he
        have hmem := hperm.mem_iff.mp he
        exact ih e hmem (hvalues e hmem) (hunique e hmem)
  | _ => trivial

-- Both forms are the same value.
theorem norm_sortedJson (v : PyData) (hv : Writable v) (hu : UniqueKeys v) :
    Json.norm (sortedJson v) = Json.norm (asJson v) := by
  induction v using PyData.ind with
  | list items ih | tuple items ih =>
      have hitems := (writableItems_iff items).mp hv
      have hunique := (uniqueItems_iff items).mp hu
      simp only [sortedJson, sortedItems_eq, asJson, asItems_eq, Json.norm, Json.normItems_eq, List.map_map]
      exact congrArg Json.arr (List.map_congr_left fun v hmem => ih v hmem (hitems v hmem) (hunique v hmem))
  | dict entries ih =>
      obtain ⟨⟨sorted, hsorted⟩, hkeys, hvalues⟩ := hv
      have hvalues := (writableEntries_iff entries).mp hvalues
      have hunique := (uniqueEntries_iff entries).mp hu.2
      have hperm := sortEntries_perm entries sorted hsorted
      have hnames : ((named (sorted.map fun e => (e.1, sortedJson e.2))).map Prod.fst).Nodup := by
        rw [names_map_value, ((named_perm _ _ hperm).map Prod.fst).nodup_iff]
        exact named_nodup entries sorted hsorted hu.1 hkeys
      have hnorm : Json.normFields (named (sorted.map fun e => (e.1, sortedJson e.2))) =
          sorted.map fun e => (keyName e.1, Json.norm (asJson e.2)) := by
        rw [Json.normFields_eq, named, List.map_map, List.map_map]
        refine List.map_congr_left fun e he => ?_
        have hmem := hperm.mem_iff.mp he
        exact Prod.ext rfl (ih e hmem (hvalues e hmem) (hunique e hmem))
      rw [sortedJson_dict entries sorted hsorted, asJson, asFields_eq, Json.norm_obj_eq_iff _ _ hnames, hnorm,
        Json.normFields_eq, named, List.map_map, List.map_map]
      exact hperm.map _
  | _ => rfl

-- The sorted form is in the order of the names exactly when the keys are.
theorem sortedJson_eq_norm_iff (v : PyData) (hv : Writable v) (hu : UniqueKeys v) :
    sortedJson v = Json.norm (asJson v) ↔ InOrder v := by
  induction v using PyData.ind with
  | list items ih | tuple items ih =>
      have hitems := (writableItems_iff items).mp hv
      have hunique := (uniqueItems_iff items).mp hu
      simp only [sortedJson, sortedItems_eq, asJson, asItems_eq, Json.norm, Json.normItems_eq, List.map_map,
        Json.arr.injEq, List.map_inj_left, InOrder, inOrderItems_iff]
      exact forall₂_congr fun v hmem => ih v hmem (hitems v hmem) (hunique v hmem)
  | dict entries ih =>
      obtain ⟨⟨sorted, hsorted⟩, hkeys, hvalues⟩ := hv
      have hvalues := (writableEntries_iff entries).mp hvalues
      have hunique := (uniqueEntries_iff entries).mp hu.2
      have hperm := sortEntries_perm entries sorted hsorted
      have hnames := named_nodup entries sorted hsorted hu.1 hkeys
      have hform : Json.norm (asJson (.dict entries)) =
          .obj (Json.sortKeys (named (entries.map fun e => (e.1, Json.norm (asJson e.2))))) := by
        rw [asJson, asFields_eq, Json.norm, Json.normFields_eq, named, named, List.map_map, List.map_map, List.map_map]
        rfl
      have hsame := Json.sortKeys_perm (named (entries.map fun e => (e.1, Json.norm (asJson e.2))))
      have hpairwise := Json.sortKeys_pairwise (named (entries.map fun e => (e.1, Json.norm (asJson e.2))))
      rw [sortedJson_dict entries sorted hsorted, hform, Json.obj.injEq, InOrder, inOrderEntries_iff]
      constructor
      · intro h
        rw [← h] at hsame hpairwise
        refine ⟨⟨sorted, hsorted, ?_⟩, fun e he => (ih e he (hvalues e he) (hunique e he)).mp ?_⟩
        · exact (ordered_map_value sortedJson sorted).mp hpairwise
        · -- an entry of that name is this entry
          have hmem : (keyName e.1, sortedJson e.2) ∈ named (sorted.map fun e => (e.1, sortedJson e.2)) :=
            List.mem_map_of_mem (List.mem_map_of_mem (hperm.mem_iff.mpr he))
          obtain ⟨f, hf, hname⟩ := List.mem_map.mp (hsame.mem_iff.mp hmem)
          obtain ⟨d, hd, rfl⟩ := List.mem_map.mp hf
          obtain ⟨hname, hvalue⟩ := Prod.mk.inj hname
          rw [named, List.map_map] at hnames
          obtain rfl := List.inj_on_of_nodup_map hnames hd he hname
          exact hvalue.symm
      · rintro ⟨⟨sorted', hsorted', hordered⟩, hentries⟩
        obtain rfl := Except.ok.inj (hsorted.symm.trans hsorted')
        have hsortedValues : sorted.map (fun e => (e.1, sortedJson e.2)) =
            sorted.map fun e => (e.1, Json.norm (asJson e.2)) := by
          refine List.map_congr_left fun e he => Prod.ext rfl ?_
          have hmem := hperm.mem_iff.mp he
          exact (ih e hmem (hvalues e hmem) (hunique e hmem)).mpr (hentries e hmem)
        rw [hsortedValues]
        refine Json.eq_of_perm_of_sorted _ _ ((named_perm _ _ (hperm.map _)).trans hsame.symm) ?_ hpairwise ?_
        · exact (ordered_map_value (fun v => Json.norm (asJson v)) sorted).mpr hordered
        · rw [names_map_value (fun v => Json.norm (asJson v)), ((named_perm _ _ hperm).map Prod.fst).nodup_iff]
          exact hnames
  | _ => exact iff_of_true rfl trivial

-- What is written with sorted keys is written at the same depth in any order.
theorem fits_asJson (st : Json.Style) (hsort : st.sortKeys = true) (limit : Nat) (v : PyData) (hv : Writable v)
    (hu : UniqueKeys v) : Json.Fits st.allowNan limit (asJson v) ↔ Json.Fits st.allowNan limit (sortedJson v) := by
  rw [← Json.encode_isOk_iff st, ← Json.encode_isOk_iff st,
    Json.encode_congr st hsort limit _ _ (norm_sortedJson v hv hu)]

-- Both forms have the same characters in them.
theorem allChars_asJson (P : CodePoint → Prop) (hascii : ∀ c : CodePoint, c.val < 0x80 → P c) (limit : Nat) (v : PyData)
    (hv : Writable v) (hu : UniqueKeys v) (hfits : Json.Fits true limit (asJson v)) :
    Json.AllChars P (asJson v) ↔ Json.AllChars P (sortedJson v) := by
  obtain ⟨text, htext⟩ := (Json.encode_isOk_iff Json.Style.canonical limit (asJson v)).mpr hfits
  have hsorted := htext
  rw [← Json.encode_congr Json.Style.canonical rfl limit _ _ (norm_sortedJson v hv hu)] at hsorted
  rw [← Json.encode_chars P hascii Json.Style.canonical rfl limit _ text htext,
    ← Json.encode_chars P hascii Json.Style.canonical rfl limit _ text hsorted]

end Order

end PyData

end V91Core.Python
