import V91Core.Ledger.Model
import V91Core.Json.Lexer

namespace V91Core.Ledger

open V91Core.Python

-- The values that `verify_chain` reads from a record.
structure Record where
  seq : Json
  timestamp : Json
  prevHash : Json
  payload : Json
  hash : Json
deriving DecidableEq

def recordOf (fields : List (PyStr × Json)) : Option Record := do
  return ⟨← Json.lookup (py "seq") fields, ← Json.lookup (py "timestamp") fields,
    ← Json.lookup (py "prev_hash") fields, ← Json.lookup (py "payload") fields,
    ← Json.lookup (py "hash") fields⟩

def storedRecord (rt : Runtime) (line : PyStr) : Option Record :=
  match loadsText rt line with
  | .ok (.obj fields) => recordOf fields
  | _ => none

theorem storedRecord_eq_some (rt : Runtime) (line : PyStr) (r : Record) :
    storedRecord rt line = some r ↔ ∃ fields, loadsText rt line = .ok (.obj fields) ∧
      Json.lookup (py "seq") fields = some r.seq ∧
      Json.lookup (py "timestamp") fields = some r.timestamp ∧
      Json.lookup (py "prev_hash") fields = some r.prevHash ∧
      Json.lookup (py "payload") fields = some r.payload ∧
      Json.lookup (py "hash") fields = some r.hash := by
  unfold storedRecord
  constructor
  · intro h
    split at h
    · rename_i fields hload
      simp only [recordOf, Option.bind_eq_bind, Option.bind_eq_some_iff, Option.pure_def,
        Option.some.injEq] at h
      obtain ⟨seq, hs, timestamp, ht, prevHash, hp, payload, hpay, hash, hh, rfl⟩ := h
      exact ⟨fields, ‹_›, hs, ht, hp, hpay, hh⟩
    · cases h
  · rintro ⟨fields, hload, hs, ht, hp, hpay, hh⟩
    simp [hload, recordOf, hs, ht, hp, hpay, hh]

section Check

theorem exec_bind (x : Check α) (f : α → Check β) (errors : List PyStr) :
    Check.exec (x >>= f) errors = match Check.exec x errors with
      | (.ok a, errors) => Check.exec (f a) errors
      | (.error e, errors) => (.error e, errors) := by
  unfold Check.exec
  rw [ExceptT.run_bind, StateT.run_bind]
  change (match x.run.run errors with | (r, errors) => _) = _
  rcases x.run.run errors with ⟨r | r, errors⟩ <;> rfl

theorem exec_lift (x : Except PyExc α) (errors : List PyStr) :
    Check.exec (liftM x) errors = (x, errors) := by
  cases x <;> rfl

theorem exec_pure (a : α) (errors : List PyStr) : Check.exec (pure a) errors = (.ok a, errors) := rfl

theorem exec_expect (ok : Bool) (lineNo : Nat) (kind : PyStr) (errors : List PyStr) :
    Check.exec (expect ok lineNo kind) errors =
      (.ok (), if ok then errors else errors ++ [lineError lineNo kind]) := by
  cases ok <;> rfl

-- The block ends without an exception and without a new error.
def Clean (x : Check α) (a : α) : Prop := x.exec [] = (.ok a, [])

-- Errors are only ever added.
def Grows (x : Check α) : Prop := ∀ errors, errors <+: (x.exec errors).2

theorem grows_lift (x : Except PyExc α) : Grows (liftM x) := by
  intro errors
  rw [exec_lift]

theorem grows_pure (a : α) : Grows (pure a) := fun errors => List.prefix_refl errors

theorem grows_expect (ok : Bool) (lineNo : Nat) (kind : PyStr) : Grows (expect ok lineNo kind) := by
  intro errors
  rw [exec_expect]
  cases ok
  · exact List.prefix_append errors _
  · exact List.prefix_refl errors

theorem grows_bind (x : Check α) (f : α → Check β) (hx : Grows x) (hf : ∀ a, Grows (f a)) :
    Grows (x >>= f) := by
  intro errors
  have h := hx errors
  rw [exec_bind]
  rcases hr : x.exec errors with ⟨r | a, errors'⟩
  · rwa [hr] at h
  · rw [hr] at h
    exact h.trans (hf a errors')

theorem clean_lift_bind (x : Except PyExc α) (f : α → Check β) (b : β) :
    Clean (liftM x >>= f) b ↔ ∃ a, x = .ok a ∧ Clean (f a) b := by
  unfold Clean
  rw [exec_bind, exec_lift]
  cases x <;> simp

theorem clean_expect_bind (ok : Bool) (lineNo : Nat) (kind : PyStr) (f : Unit → Check β) (b : β)
    (hf : Grows (f ())) : Clean (expect ok lineNo kind >>= f) b ↔ ok = true ∧ Clean (f ()) b := by
  unfold Clean
  rw [exec_bind, exec_expect]
  cases ok
  · have hgrow := hf ([] ++ [lineError lineNo kind])
    simp only [Bool.false_eq_true, if_false, false_and, iff_false]
    intro h
    rw [h] at hgrow
    exact absurd (List.prefix_nil.mp hgrow) (by simp)
  · simp

theorem clean_pure (a b : α) : Clean (pure a) b ↔ a = b := by
  rw [Clean, exec_pure]
  simp

end Check

section Records

-- What `verify_chain` demands of a record.
structure GoodRecord (rt : Runtime) (expectedSeq : Nat) (prev : Json) (line : PyStr) (r : Record) :
    Prop where
  stored : storedRecord rt line = some r
  seq : Json.eqInt expectedSeq r.seq = true
  linked : compareValue rt r.prevHash prev = .ok true
  hashed : ∃ digest, computeHash rt r.prevHash r.seq r.timestamp r.payload = .ok digest ∧
    compareValue rt r.hash (.str digest) = .ok true

theorem checkRecord_clean_iff (rt : Runtime) (expectedSeq : Nat) (prev : Json) (lineNo : Nat)
    (line : PyStr) (hash : Json) :
    Clean (checkRecord rt expectedSeq prev lineNo line) hash ↔
      ∃ r, GoodRecord rt expectedSeq prev line r ∧ r.hash = hash := by
  have hiff : Clean (checkRecord rt expectedSeq prev lineNo line) hash ↔
      ∃ record, loadsText rt line = .ok record ∧ ∃ seq, subscript record (py "seq") = .ok seq ∧
        Json.eqInt expectedSeq seq = true ∧ ∃ prevHash, subscript record (py "prev_hash") = .ok prevHash ∧
        ∃ linked, compareValue rt prevHash prev = .ok linked ∧ linked = true ∧
        ∃ timestamp, subscript record (py "timestamp") = .ok timestamp ∧
        ∃ payload, subscript record (py "payload") = .ok payload ∧
        ∃ digest, computeHash rt prevHash seq timestamp payload = .ok digest ∧
        ∃ h, subscript record (py "hash") = .ok h ∧ ∃ matched, compareValue rt h (.str digest) = .ok matched ∧
        matched = true ∧ h = hash := by
    -- what follows a comparison only adds errors
    simp (disch := repeat (first
      | exact grows_pure _
      | refine grows_bind _ _ (grows_lift _) fun _ => ?_
      | refine grows_bind _ _ (grows_expect _ _ _) fun _ => ?_)) only
      [checkRecord, clean_lift_bind, clean_expect_bind, clean_pure]
  rw [hiff]
  constructor
  · rintro ⟨record, hload, seq, hs, hseq, prevHash, hp, linked, hlink, rfl, timestamp, ht, payload, hpay,
      digest, hd, h, hh, matched, hm, rfl, rfl⟩
    obtain ⟨fields, rfl, -⟩ := (subscript_eq_ok _ _ _).mp hs
    have hlookup : ∀ key v, subscript (.obj fields) key = .ok v → Json.lookup key fields = some v := by
      intro key v hv
      obtain ⟨_, hobj, hv⟩ := (subscript_eq_ok _ _ _).mp hv
      rwa [Json.obj.inj hobj]
    refine ⟨⟨seq, timestamp, prevHash, payload, h⟩, ⟨?_, hseq, hlink, digest, hd, hm⟩, rfl⟩
    exact (storedRecord_eq_some _ _ _).mpr ⟨fields, hload, hlookup _ _ hs, hlookup _ _ ht,
      hlookup _ _ hp, hlookup _ _ hpay, hlookup _ _ hh⟩
  · rintro ⟨r, ⟨hstored, hseq, hlink, digest, hd, hm⟩, rfl⟩
    obtain ⟨fields, hload, hs, ht, hp, hpay, hh⟩ := (storedRecord_eq_some _ _ _).mp hstored
    have hsub : ∀ key v, Json.lookup key fields = some v → subscript (.obj fields) key = .ok v :=
      fun key v hv => (subscript_eq_ok _ _ _).mpr ⟨fields, rfl, hv⟩
    exact ⟨_, hload, _, hsub _ _ hs, hseq, _, hsub _ _ hp, true, hlink, rfl, _, hsub _ _ ht,
      _, hsub _ _ hpay, digest, hd, _, hsub _ _ hh, true, hm, rfl, rfl⟩

-- The records of a chain that `verify_chain` accepts, from a sequence number and
-- a previous hash on. Blank lines do not count.
inductive GoodLines (rt : Runtime) : Nat → Json → List PyStr → List Record → Prop
  | nil (n : Nat) (prev : Json) : GoodLines rt n prev [] []
  | blank (n : Nat) (prev : Json) (line : PyStr) (lines : List PyStr) (rs : List Record)
      (hblank : strip line = []) (hrest : GoodLines rt n prev lines rs) :
      GoodLines rt n prev (line :: lines) rs
  | record (n : Nat) (prev : Json) (line : PyStr) (lines : List PyStr) (r : Record)
      (rs : List Record) (hline : strip line ≠ []) (hgood : GoodRecord rt n prev line r)
      (hrest : GoodLines rt (n + 1) r.hash lines rs) :
      GoodLines rt n prev (line :: lines) (r :: rs)

theorem checkRecord_grows (rt : Runtime) (expectedSeq : Nat) (prev : Json) (lineNo : Nat)
    (line : PyStr) : Grows (checkRecord rt expectedSeq prev lineNo line) := by
  unfold checkRecord
  repeat (first
    | exact grows_pure _
    | refine grows_bind _ _ (grows_lift _) fun _ => ?_
    | refine grows_bind _ _ (grows_expect _ _ _) fun _ => ?_)

theorem verifyLines_grows (rt : Runtime) (lines : List PyStr) (lineNo : Nat) (p q : Progress)
    (stopped : Bool) (h : verifyLines rt lineNo p lines = .ok (q, stopped)) :
    p.errors <+: q.errors := by
  induction lines generalizing lineNo p with
  | nil =>
      obtain ⟨rfl, -⟩ := Prod.mk.inj (Except.ok.inj h)
      exact List.prefix_refl _
  | cons line lines ih =>
      rw [verifyLines] at h
      split at h
      · exact ih _ _ h
      · have hgrow := checkRecord_grows rt p.records p.prev lineNo line p.errors
        split at h
        · rename_i prev errors hexec
          rw [hexec] at hgrow
          exact hgrow.trans (ih _ _ h)
        · rename_i e errors hexec
          rw [hexec] at hgrow
          split at h
          · obtain ⟨rfl, -⟩ := Prod.mk.inj (Except.ok.inj h)
            exact hgrow.trans (List.prefix_append _ _)
          · cases h

theorem goodLines_blank_iff (rt : Runtime) (n : Nat) (prev : Json) (line : PyStr) (lines : List PyStr)
    (rs : List Record) (hblank : strip line = []) :
    GoodLines rt n prev (line :: lines) rs ↔ GoodLines rt n prev lines rs := by
  constructor
  · intro h
    cases h with
    | blank _ _ _ _ _ _ hrest => exact hrest
    | record _ _ _ _ _ _ hline _ _ => exact absurd hblank hline
  · exact .blank n prev line lines rs hblank

-- The hash of the last record, or `prev` when there is none.
def headAfter (prev : Json) (rs : List Record) : Json := rs.foldl (fun _ r => r.hash) prev

-- The loop ends without errors exactly on good lines, and then without `break`.
theorem verifyLines_clean_iff (rt : Runtime) (lines : List PyStr) (lineNo records : Nat) (prev : Json)
    (q : Progress) (stopped : Bool) :
    (verifyLines rt lineNo ⟨records, [], prev⟩ lines = .ok (q, stopped) ∧ q.errors = []) ↔
      ∃ rs, GoodLines rt records prev lines rs ∧ stopped = false ∧
        q = ⟨records + rs.length, [], headAfter prev rs⟩ := by
  induction lines generalizing lineNo records prev with
  | nil =>
      rw [verifyLines, Except.ok.injEq, Prod.mk.injEq]
      constructor
      · rintro ⟨⟨rfl, rfl⟩, -⟩
        exact ⟨[], .nil records prev, rfl, rfl⟩
      · rintro ⟨rs, hgood, rfl, rfl⟩
        cases hgood
        exact ⟨⟨rfl, rfl⟩, rfl⟩
  | cons line lines ih =>
      by_cases hblank : strip line = []
      · simp only [verifyLines, if_pos hblank, goodLines_blank_iff rt _ _ _ _ _ hblank]
        exact ih (lineNo + 1) records prev
      · simp only [verifyLines, if_neg hblank]
        constructor
        · rintro ⟨h, herrors⟩
          split at h
          · rename_i prev' errors hexec
            have hgrow := verifyLines_grows rt lines _ _ q stopped h
            rw [herrors] at hgrow
            obtain rfl : errors = [] := List.prefix_nil.mp hgrow
            obtain ⟨r, hr, rfl⟩ := (checkRecord_clean_iff rt records prev lineNo line prev').mp hexec
            obtain ⟨rs, hgood, hstopped, hq⟩ := (ih (lineNo + 1) (records + 1) r.hash).mp ⟨h, herrors⟩
            refine ⟨r :: rs, .record _ _ _ _ _ _ hblank hr hgood, hstopped, ?_⟩
            rw [hq, List.length_cons, Nat.add_right_comm, Nat.add_assoc]
            rfl
          · rename_i e errors hexec
            split at h
            · obtain ⟨rfl, -⟩ := Prod.mk.inj (Except.ok.inj h)
              exact absurd herrors (by simp)
            · cases h
        · rintro ⟨rs, hgood, rfl, rfl⟩
          cases hgood with
          | blank _ _ _ _ _ hb _ => exact absurd hb hblank
          | record _ _ _ _ r rs _ hr hrest =>
              have hclean := (checkRecord_clean_iff rt records prev lineNo line r.hash).mpr ⟨r, hr, rfl⟩
              rw [show Check.exec _ _ = _ from hclean]
              refine (ih (lineNo + 1) (records + 1) r.hash).mpr ⟨rs, hrest, rfl, ?_⟩
              rw [List.length_cons, Nat.add_right_comm, Nat.add_assoc]
              rfl

-- The file is a valid chain of these records.
def GoodFile (rt : Runtime) (content : Bytes) (rs : List Record) : Prop :=
  (readLines content).error = false ∧ GoodLines rt 0 (.str genesis) (readLines content).lines rs

theorem verifyChain_valid_iff (rt : Runtime) (content : Bytes) (report : Report) :
    (verifyChain rt (some content) = .ok report ∧ report.chainValid = true) ↔
      ∃ rs, GoodFile rt content rs ∧ report = ⟨rs.length, true, []⟩ := by
  have hclean := verifyLines_clean_iff rt (readLines content).lines 1 0 (.str genesis)
  rw [verifyChain]
  constructor
  · rintro ⟨h, hvalid⟩
    split at h
    · cases h
    · rename_i p stopped hp
      split at h
      · cases h
      · rename_i herror
        obtain rfl := Except.ok.inj h
        have herrors : p.errors = [] := by simpa using hvalid
        obtain ⟨rs, hgood, rfl, rfl⟩ := (hclean p stopped).mp ⟨hp, herrors⟩
        refine ⟨rs, ⟨?_, hgood⟩, by simp⟩
        simpa using herror
  · rintro ⟨rs, ⟨herror, hgood⟩, rfl⟩
    obtain ⟨hlines, -⟩ := (hclean _ false).mpr ⟨rs, hgood, rfl, rfl⟩
    rw [hlines]
    simp [herror]

end Records

end V91Core.Ledger
