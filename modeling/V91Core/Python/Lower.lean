import V91Core.Python.Text

namespace V91Core.Python

-- The tables of the Unicode database that `str.lower` looks into.
structure CaseTables where
  lowerFull : CodePoint → PyStr
  isCased : CodePoint → Bool
  isCaseIgnorable : CodePoint → Bool
  lowerFull_ne_nil : ∀ c, lowerFull c ≠ []

variable (tables : CaseTables)

-- The nearest character that is not case-ignorable is cased.
def nextIsCased (s : PyStr) : Bool := (s.find? fun c => !tables.isCaseIgnorable c).any tables.isCased

-- The small form of a capital sigma, which is another one at the end of a word.
def lowerSigma (before after : PyStr) : CodePoint :=
  if nextIsCased tables before && !nextIsCased tables after then chr 0x3C2 else chr 0x3C3

-- `before` is the text in front, backwards.
def lowerFrom (before : PyStr) : PyStr → PyStr
  | [] => []
  | c :: rest =>
      (if c = chr 0x3A3 then [lowerSigma tables before rest] else tables.lowerFull c) ++ lowerFrom (c :: before) rest

-- `str.lower()`.
def lower (s : PyStr) : PyStr := lowerFrom tables [] s

theorem lower_eq_nil_iff (s : PyStr) : lower tables s = [] ↔ s = [] := by
  cases s with
  | nil => simp [lower, lowerFrom]
  | cons c rest =>
      have hne := tables.lowerFull_ne_nil c
      by_cases hsigma : c = chr 0x3A3
      · simp [lower, lowerFrom, hsigma]
      · rw [lower, lowerFrom, if_neg hsigma]
        simp [hne]

-- The tables on ASCII alone.
def asciiCase : CaseTables where
  lowerFull c := [if 0x41 ≤ c.val && c.val ≤ 0x5A then chr (c.val + 32) else c]
  isCased c := (0x41 ≤ c.val && c.val ≤ 0x5A) || (0x61 ≤ c.val && c.val ≤ 0x7A)
  isCaseIgnorable c := c = cp '.' || c = cp ':' || c = cp '^' || c = cp '`' || c.val = 0x27
  lowerFull_ne_nil _ := List.cons_ne_nil _ _

end V91Core.Python
