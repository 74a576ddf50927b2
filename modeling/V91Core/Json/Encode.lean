import V91Core.Json.Value
import V91Core.Python.Number

namespace V91Core.Json

open V91Core.Python

-- The arguments of `json.dumps` that are used: default or compact separators,
-- `sort_keys`, `ensure_ascii` and `allow_nan`.
structure Style where
  spaced : Bool
  sortKeys : Bool
  ensureAscii : Bool
  allowNan : Bool

namespace Style

def itemSep (st : Style) : PyStr := if st.spaced then [cp ',', cp ' '] else [cp ',']

def keySep (st : Style) : PyStr := if st.spaced then [cp ':', cp ' '] else [cp ':']

-- `sort_keys=True, separators=(",", ":"), ensure_ascii=False`.
def canonical : Style := ⟨false, true, false, true⟩

-- `sort_keys=True, ensure_ascii=False`.
def record : Style := ⟨true, true, false, true⟩

end Style

inductive EncodeError where
  | recursion
  | tooManyDigits
  | notCompliant
deriving DecidableEq

-- `sys.get_int_max_str_digits()`.
def maxIntDigits : Nat := 4300

def hex4 (n : Nat) : PyStr :=
  [cp '\\', cp 'u', hexChar (n / 4096 % 16), hexChar (n / 256 % 16), hexChar (n / 16 % 16),
    hexChar (n % 16)]

-- The characters with an escape of two characters, and its second one.
def shortEscapes : List (CodePoint × CodePoint) :=
  [(cp '"', cp '"'), (cp '\\', cp '\\'), (cp '\n', cp 'n'), (cp '\r', cp 'r'), (cp '\t', cp 't'),
    (chr 0x0C, cp 'f'), (chr 0x08, cp 'b')]

def escapeChar (ensureAscii : Bool) (c : CodePoint) : PyStr :=
  match shortEscapes.find? (·.1 = c) with
  | some (_, d) => [cp '\\', d]
  | none =>
      if c.val < 0x20 then hex4 c.val
      else if ensureAscii ∧ 0x7F ≤ c.val then
        if c.val < 0x10000 then hex4 c.val
        else hex4 (0xD800 + (c.val - 0x10000) / 1024) ++ hex4 (0xDC00 + (c.val - 0x10000) % 1024)
      else [c]

def encodeString (ensureAscii : Bool) (s : PyStr) : PyStr :=
  cp '"' :: (s.flatMap (escapeChar ensureAscii) ++ [cp '"'])

def floatText (x : Float) : PyStr :=
  match exactDecimal x with
  | some d => finiteRepr x d
  | none =>
      match x.toModel.unpack with
      | .infinity .positive => py "Infinity"
      | .infinity .negative => py "-Infinity"
      | _ => py "NaN"

def joinWith (sep : PyStr) : List PyStr → PyStr
  | [] => []
  | [s] => s
  | s :: t :: rest => s ++ sep ++ joinWith sep (t :: rest)

def sequence : List (Except ε α) → Except ε (List α)
  | [] => .ok []
  | .error e :: _ => .error e
  | .ok a :: rest =>
      match sequence rest with
      | .ok as => .ok (a :: as)
      | .error e => .error e

def fieldText (st : Style) (f : PyStr × Except EncodeError PyStr) : Except EncodeError PyStr :=
  f.2.map fun v => encodeString st.ensureAscii f.1 ++ st.keySep ++ v

mutual

-- `limit` is the number of nested containers that the interpreter's recursion
-- limit leaves room for.
def encode (st : Style) (limit : Nat) : Json → Except EncodeError PyStr
  | .null => .ok (py "null")
  | .bool true => .ok (py "true")
  | .bool false => .ok (py "false")
  | .int n => if (natText n.natAbs).length ≤ maxIntDigits then .ok (intText n) else .error .tooManyDigits
  | .float x => if st.allowNan || isFinite x then .ok (floatText x) else .error .notCompliant
  | .str s => .ok (encodeString st.ensureAscii s)
  | .arr items =>
      match limit with
      | 0 => .error .recursion
      | limit + 1 =>
          (sequence (encodeItems st limit items)).map fun texts =>
            cp '[' :: (joinWith st.itemSep texts ++ [cp ']'])
  | .obj fields =>
      match limit with
      | 0 => .error .recursion
      | limit + 1 =>
          let entries := encodeFields st limit fields
          let entries := if st.sortKeys then sortKeys entries else entries
          (sequence (entries.map (fieldText st))).map fun texts =>
            cp '{' :: (joinWith st.itemSep texts ++ [cp '}'])

def encodeItems (st : Style) (limit : Nat) : List Json → List (Except EncodeError PyStr)
  | [] => []
  | j :: items => encode st limit j :: encodeItems st limit items

def encodeFields (st : Style) (limit : Nat) :
    List (PyStr × Json) → List (PyStr × Except EncodeError PyStr)
  | [] => []
  | (k, v) :: fields => (k, encode st limit v) :: encodeFields st limit fields

end

mutual

-- What every style can encode at this depth; `nan` says whether a value that is
-- not a number or infinite may occur.
def Fits (nan : Bool) (limit : Nat) : Json → Prop
  | .int n => (natText n.natAbs).length ≤ maxIntDigits
  | .float x => nan = true ∨ isFinite x = true
  | .arr items => 0 < limit ∧ FitsItems nan (limit - 1) items
  | .obj fields => 0 < limit ∧ FitsFields nan (limit - 1) fields
  | _ => True

def FitsItems (nan : Bool) (limit : Nat) : List Json → Prop
  | [] => True
  | j :: items => Fits nan limit j ∧ FitsItems nan limit items

def FitsFields (nan : Bool) (limit : Nat) : List (PyStr × Json) → Prop
  | [] => True
  | (_, v) :: fields => Fits nan limit v ∧ FitsFields nan limit fields

end

@[simp] theorem encodeItems_eq (st : Style) (limit : Nat) (items : List Json) :
    encodeItems st limit items = items.map (encode st limit) := by
  induction items with
  | nil => rfl
  | cons j items ih => rw [encodeItems, ih, List.map_cons]

@[simp] theorem encodeFields_eq (st : Style) (limit : Nat) (fields : List (PyStr × Json)) :
    encodeFields st limit fields = fields.map fun f => (f.1, encode st limit f.2) := by
  induction fields with
  | nil => rfl
  | cons f fields ih => rw [encodeFields, ih, List.map_cons]

@[simp] theorem fitsItems_iff (nan : Bool) (limit : Nat) (items : List Json) :
    FitsItems nan limit items ↔ ∀ j ∈ items, Fits nan limit j := by
  induction items with
  | nil => simp [FitsItems]
  | cons j items ih => simp [FitsItems, ih]

@[simp] theorem fitsFields_iff (nan : Bool) (limit : Nat) (fields : List (PyStr × Json)) :
    FitsFields nan limit fields ↔ ∀ f ∈ fields, Fits nan limit f.2 := by
  induction fields with
  | nil => simp [FitsFields]
  | cons f fields ih => simp [FitsFields, ih]

theorem fits_of_strict (nan : Bool) (limit : Nat) (j : Json) (h : Fits false limit j) : Fits nan limit j := by
  induction j using ind generalizing limit with
  | float x => exact .inr (h.resolve_left Bool.false_ne_true)
  | int n => exact h
  | arr items ih => exact ⟨h.1, (fitsItems_iff _ _ _).mpr fun j hj => ih j hj _ ((fitsItems_iff _ _ _).mp h.2 j hj)⟩
  | obj fields ih =>
      exact ⟨h.1, (fitsFields_iff _ _ _).mpr fun f hf => ih f hf _ ((fitsFields_iff _ _ _).mp h.2 f hf)⟩
  | _ => trivial

theorem sequence_eq_ok_iff (results : List (Except ε α)) (as : List α) :
    sequence results = .ok as ↔ results = as.map .ok := by
  induction results generalizing as with
  | nil => cases as <;> simp [sequence]
  | cons r results ih =>
      cases r with
      | error e => cases as <;> simp [sequence]
      | ok a =>
          simp only [sequence]
          cases hs : sequence results with
          | error e =>
              cases as with
              | nil => simp
              | cons b as =>
                  have hne : results ≠ as.map .ok := fun h => by
                    rw [(ih as).mpr h] at hs
                    cases hs
                  simp [hne]
          | ok bs =>
              cases as with
              | nil => simp
              | cons b as =>
                  have h := ih as
                  rw [hs, Except.ok.injEq] at h
                  simp [h]

theorem sequence_isOk_iff (results : List (Except ε α)) :
    (∃ as, sequence results = .ok as) ↔ ∀ r ∈ results, ∃ a, r = .ok a := by
  induction results with
  | nil => simp [sequence]
  | cons r results ih =>
      cases r with
      | error e => simp [sequence]
      | ok a =>
          simp only [sequence, List.forall_mem_cons, Except.ok.injEq, exists_eq', true_and, ← ih]
          cases sequence results <;> simp

-- Whether a value can be encoded does not depend on the separators, the order
-- of the keys or the treatment of non-ASCII characters.
theorem encode_isOk_iff (st : Style) (limit : Nat) (j : Json) :
    (∃ text, encode st limit j = .ok text) ↔ Fits st.allowNan limit j := by
  have hmap : ∀ (f : List PyStr → PyStr) (r : Except EncodeError (List PyStr)),
      (∃ text, r.map f = .ok text) ↔ ∃ texts, r = .ok texts := by
    intro f r
    cases r <;> simp [Except.map]
  induction j using ind generalizing limit with
  | bool b => cases b <;> simp [encode, Fits]
  | int n => simp only [encode, Fits]; split <;> simp [*]
  | float x => simp only [encode, Fits]; split <;> simp_all
  | arr items ih =>
      cases limit with
      | zero => simp [encode, Fits]
      | succ limit =>
          simp only [encode, Fits, hmap, encodeItems_eq, sequence_isOk_iff, List.forall_mem_map,
            Nat.add_sub_cancel, fitsItems_iff, Nat.succ_pos, true_and]
          exact forall₂_congr fun j hj => ih j hj limit
  | obj fields ih =>
      cases limit with
      | zero => simp [encode, Fits]
      | succ limit =>
          have hfield : ∀ f : PyStr × Except EncodeError PyStr,
              (∃ text, fieldText st f = .ok text) ↔ ∃ text, f.2 = .ok text := by
            intro f
            unfold fieldText
            cases f.2 <;> simp [Except.map]
          have hperm : ∀ (entries : List (PyStr × Except EncodeError PyStr)) f,
              f ∈ (if st.sortKeys then sortKeys entries else entries) ↔ f ∈ entries := by
            intro entries f
            split
            · exact (sortKeys_perm _).mem_iff
            · exact Iff.rfl
          simp only [encode, Fits, hmap, sequence_isOk_iff, List.forall_mem_map, hfield, hperm,
            Nat.add_sub_cancel, encodeFields_eq, fitsFields_iff, Nat.succ_pos, true_and]
          exact forall₂_congr fun f hf => ih f hf limit
  | _ => simp [encode, Fits]

end V91Core.Json
