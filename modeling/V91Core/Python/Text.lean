import Mathlib.Data.List.Basic
import Mathlib.Data.List.DropRight
import Mathlib.Data.List.TakeWhile

namespace V91Core.Python

abbrev Bytes := List UInt8

-- A `str` is a sequence of code points, and a lone surrogate is one of them.
abbrev CodePoint := Fin 0x110000

abbrev PyStr := List CodePoint

instance : LawfulBEq CodePoint := inferInstance

instance : LawfulBEq PyStr := inferInstance

-- `chr(n)`.
abbrev chr (n : Nat) : CodePoint := Fin.ofNat 0x110000 n

def cp (c : Char) : CodePoint := chr c.toNat

def py (s : String) : PyStr := s.toList.map cp

namespace CodePoint

def isSurrogate (c : CodePoint) : Bool := 0xD800 ≤ c.val && c.val < 0xE000

def isAscii (c : CodePoint) : Bool := c.val < 0x80

-- `str.isspace` of one character.
def isSpace (c : CodePoint) : Bool :=
  (0x09 ≤ c.val && c.val ≤ 0x0D) || (0x1C ≤ c.val && c.val ≤ 0x20) || c.val = 0x85 || c.val = 0xA0 ||
  c.val = 0x1680 || (0x2000 ≤ c.val && c.val ≤ 0x200A) || c.val = 0x2028 || c.val = 0x2029 ||
  c.val = 0x202F || c.val = 0x205F || c.val = 0x3000

def isDigit (c : CodePoint) : Bool := 0x30 ≤ c.val && c.val ≤ 0x39

end CodePoint

def isAscii (s : PyStr) : Bool := s.all CodePoint.isAscii

-- `str.strip()`.
def strip (s : PyStr) : PyStr :=
  (s.dropWhile CodePoint.isSpace).rdropWhile CodePoint.isSpace

theorem strip_eq_nil_iff (s : PyStr) : strip s = [] ↔ ∀ c ∈ s, c.isSpace = true := by
  rw [strip, List.rdropWhile_eq_nil_iff]
  constructor
  · intro h
    apply List.dropWhile_eq_nil_iff.mp
    have hhead := List.head?_dropWhile_not CodePoint.isSpace s
    cases hs : s.dropWhile CodePoint.isSpace with
    | nil => rfl
    | cons c rest =>
        have hc := h c (by rw [hs]; simp)
        simp [hs, hc] at hhead
  · intro h c hc
    exact h c ((List.dropWhile_suffix _).subset hc)

theorem strip_brace_ne_nil (rest : PyStr) : strip (cp '{' :: rest) ≠ [] := by
  rw [Ne, strip_eq_nil_iff]
  intro h
  have hspace := h (cp '{') List.mem_cons_self
  revert hspace
  decide

-- Strings compare code point by code point, as in `sorted`.
def strLe : PyStr → PyStr → Bool
  | [], _ => true
  | _ :: _, [] => false
  | a :: as, b :: bs => a.val < b.val || (a.val = b.val && strLe as bs)

theorem strLe_total (s t : PyStr) : strLe s t = true ∨ strLe t s = true := by
  induction s generalizing t with
  | nil => simp [strLe]
  | cons a s ih =>
      cases t with
      | nil => simp [strLe]
      | cons b t =>
          have h := ih t
          simp only [strLe, Bool.or_eq_true, Bool.and_eq_true, decide_eq_true_eq]
          rcases lt_trichotomy a.val b.val with hl | he | hg
          · exact .inl (.inl hl)
          · exact h.imp (fun h => .inr ⟨he, h⟩) (fun h => .inr ⟨he.symm, h⟩)
          · exact .inr (.inl hg)

theorem strLe_trans (s t u : PyStr) (hst : strLe s t = true) (htu : strLe t u = true) :
    strLe s u = true := by
  induction s generalizing t u with
  | nil => simp [strLe]
  | cons a s ih =>
      cases t with
      | nil => simp [strLe] at hst
      | cons b t =>
          cases u with
          | nil => simp [strLe] at htu
          | cons c u =>
              have h := ih t u
              simp only [strLe, Bool.or_eq_true, Bool.and_eq_true, decide_eq_true_eq] at *
              grind

theorem strLe_antisymm (s t : PyStr) (hst : strLe s t = true) (hts : strLe t s = true) : s = t := by
  induction s generalizing t with
  | nil => cases t <;> simp [strLe] at *
  | cons a s ih =>
      cases t with
      | nil => simp [strLe] at hst
      | cons b t =>
          simp only [strLe, Bool.or_eq_true, Bool.and_eq_true, decide_eq_true_eq] at hst hts
          have he : a.val = b.val := by omega
          have hrest := ih t (hst.resolve_left (by omega)).2 (hts.resolve_left (by omega)).2
          rw [Fin.ext he, hrest]

-- Text-mode reading with `newline=None`: the flag says that the previous
-- character was a carriage return, whose line feed was already produced.
def universalNewlines : Bool → PyStr → PyStr
  | _, [] => []
  | afterCr, c :: rest =>
      if c = cp '\n' && afterCr then universalNewlines false rest
      else if c = cp '\r' then cp '\n' :: universalNewlines true rest
      else c :: universalNewlines false rest

-- `for line in fh`: every line keeps its line feed, the last one may lack it.
def splitLines : PyStr → List PyStr
  | [] => []
  | c :: rest =>
      if c = cp '\n' then [c] :: splitLines rest
      else match splitLines rest with
        | [] => [[c]]
        | line :: lines => (c :: line) :: lines

end V91Core.Python
