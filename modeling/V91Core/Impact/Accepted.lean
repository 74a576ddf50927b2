import V91Core.Effect.Raises
import V91Core.Impact.Model

namespace V91Core.Impact

open V91Core.Python V91Core.Effect

section Parsing

variable {N : Type} (A : Arith N)

-- The samples of the rows that pass on their own.
def accepted (rows : List Row) : List (Sample N) := rows.filterMap fun row => (readSample A row).toOption

def Rejects (row : Row) : Prop := Raises (readSample A row) fun e => isRejection e = true

theorem parse_eq (rows : List Row) (h : ∀ row ∈ rows, Rejects A row) :
    parse A rows = .ok (accepted A rows, rows.length - (accepted A rows).length) := by
  induction rows with
  | nil => rfl
  | cons row rows ih =>
      obtain ⟨hrow, hrows⟩ := List.forall_mem_cons.mp h
      have hle : (accepted A rows).length ≤ rows.length := List.length_filterMap_le _ _
      rw [parse]
      cases hread : readSample A row with
      | ok s =>
          have hcons : accepted A (row :: rows) = s :: accepted A rows := by
            rw [accepted, List.filterMap_cons, hread]
            rfl
          rw [ih hrows, hcons]
          simp [Except.map]
      | error e =>
          have hskip : accepted A (row :: rows) = accepted A rows := by
            rw [accepted, List.filterMap_cons, hread]
            rfl
          dsimp only
          rw [if_pos (hrow e hread), ih hrows, hskip, List.length_cons, Nat.succ_sub hle]
          rfl

-- Every accepted sample names a source with a confidence.
theorem accepted_source (rows : List Row) (s : Sample N) (h : s ∈ accepted A rows) :
    (confidence A s.source).isSome = true := by
  obtain ⟨row, -, hrow⟩ := List.mem_filterMap.mp h
  cases hread : readSample A row with
  | error e =>
      rw [hread] at hrow
      cases hrow
  | ok t =>
      rw [hread] at hrow
      obtain rfl := Option.some.inj hrow
      simp only [readSample, bind_eq_ok] at hread
      obtain ⟨-, -, -, -, ts, -, -, -, value, -, source, -, value', -, hif⟩ := hread
      split at hif
      · next hsource =>
          cases hif
          exact hsource
      · cases hif

-- A row as the CSV reader makes it.
def Cell.isCsv : Cell → Bool
  | .number _ => false
  | _ => true

def Row.isCsv (row : Row) : Bool := [row.timestamp, row.value, row.sourceType].all fun c => c.all Cell.isCsv

theorem cell_float_rejects (c : Cell) (h : c.isCsv = true) : Raises (c.float A) fun e => isRejection e = true := by
  cases c with
  | none => exact raises_error _ _ rfl
  | text s =>
      intro e he
      rw [Cell.float] at he
      cases hs : floatText s with
      | none =>
          rw [hs] at he
          cases he
          rfl
      | some n =>
          rw [hs] at he
          cases he
  | number a => cases h

theorem ofOption_rejects {α : Type} (e : PyExc) (o : Option α) (h : isRejection e = true) :
    Raises (ofOption e o) fun e => isRejection e = true := by
  cases o with
  | none => exact raises_error _ _ h
  | some a => exact raises_ok _ _

theorem cell_str_rejects (c : Cell) : Raises c.str fun e => isRejection e = true := by
  cases c with
  | none => exact raises_ok _ _
  | text s => exact raises_ok _ _
  | number a =>
      cases a with
      | float x => exact raises_ok _ _
      | int n =>
          intro e he
          rw [Cell.str, PyData.intRepr] at he
          split at he
          · cases he
          · cases he
            rfl

-- Only `float` may raise something that is not caught.
theorem rejects_of_float (row : Row)
    (h : ∀ c, row.value = some c → Raises (c.float A) fun e => isRejection e = true) : Rejects A row := by
  unfold Rejects readSample
  apply raises_bind _ _ _ (ofOption_rejects _ _ rfl)
  intro stamp _
  apply raises_bind _ _ _ (cell_str_rejects stamp)
  intro text _
  apply raises_bind _ _ _ (ofOption_rejects _ _ rfl)
  intro ts _
  apply raises_bind _ _ _ (ofOption_rejects _ _ rfl)
  intro cell hcell
  have hvalue : row.value = some cell := by
    cases hv : row.value with
    | none =>
        rw [hv] at hcell
        cases hcell
    | some c =>
        rw [hv] at hcell
        cases hcell
        rfl
  apply raises_bind _ _ _ (h cell hvalue)
  intro value _
  apply raises_bind _ _ _ (cell_str_rejects _)
  intro source _
  apply raises_bind _ _ _ (ofOption_rejects _ _ rfl)
  intro value' _
  split
  · exact raises_ok _ _
  · exact raises_error _ _ rfl

theorem csv_rejects (row : Row) (h : row.isCsv = true) : Rejects A row := by
  apply rejects_of_float
  intro c hc
  apply cell_float_rejects
  simp only [Row.isCsv, List.all_cons, hc, Option.all_some, Bool.and_eq_true] at h
  exact h.2.1

end Parsing

section Times

-- Datetimes compare if both are aware or both are naive.
def aware (t : DateTime) : Bool := t.offset.isSome

def OneKind (ts : List DateTime) : Prop := ∀ s ∈ ts, ∀ t ∈ ts, aware s = aware t

def Compares (beats : DateTime → DateTime → Except PyExc Bool) : Prop :=
  ∀ a b, (∃ r, beats a b = .ok r) ↔ aware a = aware b

theorem timeLt_compares : Compares timeLt := by
  intro a b
  unfold timeLt aware
  cases a.offset <;> cases b.offset <;> simp

theorem Compares.flip {beats : DateTime → DateTime → Except PyExc Bool} (h : Compares beats) :
    Compares fun a b => beats b a := fun a b => (h b a).trans eq_comm

variable (beats : DateTime → DateTime → Except PyExc Bool)

theorem pick_cons (first t : DateTime) (rest : List DateTime) :
    pick beats first (t :: rest) = (beats t first).bind fun better =>
      pick beats (if better then t else first) rest := by
  rw [pick, List.foldlM_cons]
  cases beats t first <;> rfl

theorem pick_mem (first m : DateTime) (rest : List DateTime) (h : pick beats first rest = .ok m) :
    m ∈ first :: rest := by
  induction rest generalizing first with
  | nil =>
      cases h
      exact List.mem_singleton_self _
  | cons t rest ih =>
      rw [pick_cons] at h
      obtain ⟨better, -, h⟩ := (bind_eq_ok _ _ _).mp h
      have hm := ih _ h
      cases better <;> simp at hm ⊢ <;> tauto

-- The items compare with each other exactly if they are of one kind.
theorem pick_isOk_iff (hbeats : Compares beats) (first : DateTime) (rest : List DateTime) :
    (∃ m, pick beats first rest = .ok m) ↔ ∀ t ∈ rest, aware t = aware first := by
  induction rest generalizing first with
  | nil => exact iff_of_true ⟨first, rfl⟩ (by simp)
  | cons t rest ih =>
      have hkeep : ∀ better : Bool, aware t = aware first → aware (if better then t else first) = aware first := by
        intro better ht
        cases better
        · rfl
        · exact ht
      rw [pick_cons, List.forall_mem_cons]
      constructor
      · rintro ⟨m, h⟩
        obtain ⟨better, hbetter, h⟩ := (bind_eq_ok _ _ _).mp h
        have ht := (hbeats t first).mp ⟨better, hbetter⟩
        have hrest := (ih _).mp ⟨m, h⟩
        rw [hkeep better ht] at hrest
        exact ⟨ht, hrest⟩
      · rintro ⟨ht, hrest⟩
        obtain ⟨better, hbetter⟩ := (hbeats t first).mpr ht
        rw [hbetter]
        apply (ih _).mpr
        rw [hkeep better ht]
        exact hrest

-- The picked item stands for the kind of all of them.
theorem pick_kind (hbeats : Compares beats) (first m : DateTime) (rest : List DateTime)
    (h : pick beats first rest = .ok m) (t : DateTime) (ht : t ∈ first :: rest) : aware t = aware m := by
  have hrest := (pick_isOk_iff beats hbeats first rest).mp ⟨m, h⟩
  have hall : ∀ t ∈ first :: rest, aware t = aware first := List.forall_mem_cons.mpr ⟨rfl, hrest⟩
  rw [hall t ht, hall m (pick_mem beats first m rest h)]

theorem overlaps_isOk_iff (base after : List DateTime) :
    (∃ r, overlaps base after = .ok r) ↔ (base ≠ [] → after ≠ [] → OneKind (base ++ after)) := by
  cases base with
  | nil => exact iff_of_true ⟨false, rfl⟩ (fun h => absurd rfl h)
  | cons b base =>
      cases after with
      | nil => exact iff_of_true ⟨false, rfl⟩ (fun _ h => absurd rfl h)
      | cons a after =>
          simp only [overlaps, bind_eq_ok, ne_eq, reduceCtorEq, not_false_eq_true, forall_const]
          constructor
          · rintro ⟨r, last, hlast, first, hfirst, before, hbefore, -⟩
            have hbase := pick_kind _ timeLt_compares.flip b last base hlast
            have hafter := pick_kind _ timeLt_compares a first after hfirst
            have hboth := (timeLt_compares last first).mp ⟨before, hbefore⟩
            have hkind : ∀ s ∈ (b :: base) ++ (a :: after), aware s = aware last := by
              intro s hs
              rcases List.mem_append.mp hs with hs | hs
              · exact hbase s hs
              · rw [hafter s hs, hboth]
            intro s hs t ht
            rw [hkind s hs, hkind t ht]
          · intro h
            obtain ⟨last, hlast⟩ := (pick_isOk_iff _ timeLt_compares.flip b base).mpr
              fun t ht => h t (by simp [ht]) b (by simp)
            obtain ⟨first, hfirst⟩ := (pick_isOk_iff _ timeLt_compares a after).mpr
              fun t ht => h t (by simp [ht]) a (by simp)
            have hlastMem := pick_mem _ _ _ _ hlast
            have hfirstMem := pick_mem _ _ _ _ hfirst
            obtain ⟨before, hbefore⟩ := (timeLt_compares last first).mpr
              (h last (List.mem_append_left _ hlastMem) first (List.mem_append_right _ hfirstMem))
            exact ⟨!before, last, hlast, first, hfirst, before, hbefore, rfl⟩

end Times

end V91Core.Impact
