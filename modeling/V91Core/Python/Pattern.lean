import V91Core.Python.Text

namespace V91Core.Python

-- The tables of the `re` module: `tolower`, `str.isalnum` of one character, and the
-- other lower-case characters with the same upper case.
structure CharTables where
  lower : CodePoint → CodePoint
  isAlnum : CodePoint → Bool
  extraCases : CodePoint → List CodePoint

-- The part of the pattern syntax that the program uses.
inductive Pattern where
  | literal (text : PyStr)
  | seq (first second : Pattern)
  | alt (first second : Pattern)
  | boundary

namespace Pattern

def oneOf (first : Pattern) (others : List Pattern) : Pattern := others.foldl alt first

-- `(?:...)?`.
def optional (p : Pattern) : Pattern := alt p (literal [])

variable (tables : CharTables)

-- With `re.I`.
def sameChar (c d : CodePoint) : Bool :=
  let lower := tables.lower c
  tables.lower d = lower || tables.lower d ∈ tables.extraCases lower

def isWord (c : Option CodePoint) : Bool := c.any fun c => tables.isAlnum c || c = cp '_'

-- The text in front of a position, backwards, and the text behind it.
abbrev Position := PyStr × PyStr

def literalEnd : PyStr → Position → Option Position
  | [], position => some position
  | c :: text, (before, d :: after) => if sameChar tables c d then literalEnd text (d :: before, after) else none
  | _ :: _, (_, []) => none

-- Where a match that starts here can end.
def ends : Pattern → Position → List Position
  | .literal text, position => (literalEnd tables text position).toList
  | .seq first second, position => (ends first position).flatMap (ends second)
  | .alt first second, position => ends first position ++ ends second position
  | .boundary, (before, after) =>
      if isWord tables before.head? != isWord tables after.head? then [(before, after)] else []

-- `pattern.search(text)` finds something. The start moves on as long as it does not.
def searchFrom (p : Pattern) : PyStr → PyStr → Bool
  | before, [] => !(p.ends tables (before, [])).isEmpty
  | before, c :: after => !(p.ends tables (before, c :: after)).isEmpty || searchFrom p (c :: before) after

def search (p : Pattern) (text : PyStr) : Bool := searchFrom tables p [] text

section Padding

theorem literalEnd_append (text before after before' after' x y : PyStr)
    (h : literalEnd tables text (before, after) = some (before', after')) :
    literalEnd tables text (before ++ x, after ++ y) = some (before' ++ x, after' ++ y) := by
  induction text generalizing before after with
  | nil =>
      obtain ⟨rfl, rfl⟩ := Prod.mk.inj (Option.some.inj h)
      rfl
  | cons c text ih =>
      cases after with
      | nil => cases h
      | cons d after =>
          rw [literalEnd] at h
          split at h
          · next hsame =>
              rw [List.cons_append, literalEnd, if_pos hsame]
              exact ih (d :: before) after h
          · cases h

theorem isWord_append (a x : PyStr) (hx : isWord tables x.head? = false) :
    isWord tables (a ++ x).head? = isWord tables a.head? := by
  cases a with
  | nil => exact hx
  | cons c a => rfl

-- A match stays one between two texts that do not continue a word.
theorem ends_append (p : Pattern) (before after before' after' x y : PyStr)
    (hx : isWord tables x.head? = false) (hy : isWord tables y.head? = false)
    (h : (before', after') ∈ p.ends tables (before, after)) :
    (before' ++ x, after' ++ y) ∈ p.ends tables (before ++ x, after ++ y) := by
  induction p generalizing before after before' after' with
  | literal text =>
      rw [ends, Option.mem_toList] at h ⊢
      exact literalEnd_append tables text before after before' after' x y h
  | seq first second ihFirst ihSecond =>
      rw [ends, List.mem_flatMap] at h ⊢
      obtain ⟨⟨middle, rest⟩, hfirst, hsecond⟩ := h
      exact ⟨(middle ++ x, rest ++ y), ihFirst _ _ _ _ hfirst, ihSecond _ _ _ _ hsecond⟩
  | alt first second ihFirst ihSecond =>
      rw [ends, List.mem_append] at h ⊢
      exact h.imp (ihFirst _ _ _ _) (ihSecond _ _ _ _)
  | boundary =>
      rw [ends, isWord_append tables before x hx, isWord_append tables after y hy]
      rw [ends] at h
      split at h
      · next hboundary =>
          obtain ⟨rfl, rfl⟩ := Prod.mk.inj (List.mem_singleton.mp h)
          rw [if_pos hboundary]
          exact List.mem_singleton_self _
      · cases h

theorem searchFrom_iff (p : Pattern) (before after : PyStr) : p.searchFrom tables before after = true ↔
    ∃ skipped rest, after = skipped ++ rest ∧ p.ends tables (skipped.reverse ++ before, rest) ≠ [] := by
  induction after generalizing before with
  | nil =>
      rw [searchFrom, Bool.not_eq_true', List.isEmpty_eq_false_iff]
      constructor
      · intro h
        exact ⟨[], [], rfl, h⟩
      · rintro ⟨skipped, rest, hnil, h⟩
        obtain ⟨rfl, rfl⟩ := List.append_eq_nil_iff.mp hnil.symm
        exact h
  | cons c after ih =>
      rw [searchFrom, Bool.or_eq_true, Bool.not_eq_true', List.isEmpty_eq_false_iff, ih]
      constructor
      · rintro (h | ⟨skipped, rest, rfl, h⟩)
        · exact ⟨[], c :: after, rfl, h⟩
        · refine ⟨c :: skipped, rest, rfl, ?_⟩
          rwa [List.reverse_cons, List.append_assoc]
      · rintro ⟨skipped, rest, hsplit, h⟩
        cases skipped with
        | nil =>
            obtain rfl : c :: after = rest := hsplit
            exact .inl h
        | cons d skipped =>
            obtain ⟨rfl, rfl⟩ := List.cons.inj hsplit
            refine .inr ⟨skipped, rest, rfl, ?_⟩
            rwa [List.reverse_cons, List.append_assoc] at h

-- What is found in a text is also found in a longer one around it.
theorem search_append (p : Pattern) (text x y : PyStr) (hx : isWord tables x.getLast? = false)
    (hy : isWord tables y.head? = false) (h : p.search tables text = true) :
    p.search tables (x ++ (text ++ y)) = true := by
  obtain ⟨skipped, rest, rfl, hends⟩ := (searchFrom_iff tables p [] text).mp h
  obtain ⟨⟨before', after'⟩, hmem⟩ := List.exists_mem_of_ne_nil _ hends
  rw [← List.head?_reverse] at hx
  have hpadded := ends_append tables p _ rest before' after' x.reverse y hx hy hmem
  refine (searchFrom_iff tables p [] _).mpr ⟨x ++ skipped, rest ++ y, by simp, ?_⟩
  rw [List.append_nil] at hpadded
  rw [List.reverse_append, List.append_nil]
  exact List.ne_nil_of_mem hpadded

end Padding

end Pattern

end V91Core.Python
