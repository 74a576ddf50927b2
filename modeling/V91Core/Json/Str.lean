import V91Core.Json.Encode
import V91Core.Python.Runtime

namespace V91Core.Json

open V91Core.Python

def hexText (width n : Nat) : PyStr :=
  (List.range width).map fun i => hexChar (n / 16 ^ (width - 1 - i) % 16)

def reprChar (printable : CodePoint → Bool) (quote c : CodePoint) : PyStr :=
  if c = quote ∨ c = cp '\\' then [cp '\\', c]
  else if c = cp '\t' then [cp '\\', cp 't']
  else if c = cp '\n' then [cp '\\', cp 'n']
  else if c = cp '\r' then [cp '\\', cp 'r']
  else if c.val < 0x20 ∨ c.val = 0x7F then [cp '\\', cp 'x'] ++ hexText 2 c.val
  else if c.val < 0x7F ∨ printable c then [c]
  else if c.val ≤ 0xFF then [cp '\\', cp 'x'] ++ hexText 2 c.val
  else if c.val ≤ 0xFFFF then [cp '\\', cp 'u'] ++ hexText 4 c.val
  else [cp '\\', cp 'U'] ++ hexText 8 c.val

def reprStr (printable : CodePoint → Bool) (s : PyStr) : PyStr :=
  let quote := if cp '\'' ∈ s ∧ cp '"' ∉ s then cp '"' else cp '\''
  quote :: (s.flatMap (reprChar printable quote) ++ [quote])

def reprFloat (x : Float) : PyStr :=
  match exactDecimal x with
  | some d => finiteRepr x d
  | none =>
      match x.toModel.unpack with
      | .infinity .positive => py "inf"
      | .infinity .negative => py "-inf"
      | _ => py "nan"

mutual

def repr (printable : CodePoint → Bool) : Json → PyStr
  | .null => py "None"
  | .bool true => py "True"
  | .bool false => py "False"
  | .int n => intText n
  | .float x => reprFloat x
  | .str s => reprStr printable s
  | .arr items => cp '[' :: (joinWith [cp ',', cp ' '] (reprItems printable items) ++ [cp ']'])
  | .obj fields => cp '{' :: (joinWith [cp ',', cp ' '] (reprFields printable fields) ++ [cp '}'])

def reprItems (printable : CodePoint → Bool) : List Json → List PyStr
  | [] => []
  | j :: items => repr printable j :: reprItems printable items

def reprFields (printable : CodePoint → Bool) : List (PyStr × Json) → List PyStr
  | [] => []
  | (k, v) :: fields =>
      (reprStr printable k ++ [cp ':', cp ' '] ++ repr printable v) :: reprFields printable fields

end

-- `str(value)`, which is also what an f-string inserts.
def toStr (printable : CodePoint → Bool) : Json → PyStr
  | .str s => s
  | j => repr printable j

-- `value == n` for an int: bools and floats compare by their numeric value.
def eqInt (n : Int) : Json → Bool
  | .int m => m = n
  | .bool b => (if b then 1 else 0) = n
  | .float x =>
      match exactDecimal x with
      | some d =>
          d.digits = n.natAbs * 10 ^ (-d.exponent).toNat && (d.digits = 0 || d.neg = decide (n < 0))
      | none => false
  | _ => false

section Numbers

def IsNumber : Json → Prop
  | .bool _ | .int _ => True
  | .float x => isFinite x = true
  | _ => False

theorem isNumber_of_eqInt (n : Int) (j : Json) (h : eqInt n j = true) : IsNumber j := by
  cases j with
  | float x =>
      rw [eqInt] at h
      rw [IsNumber, isFinite]
      cases hd : exactDecimal x with
      | some d => rfl
      | none => rw [hd] at h; cases h
  | bool b => trivial
  | int m => trivial
  | _ => cases h

-- What the number scanner makes of the text of a number.
theorem toStr_number (printable : CodePoint → Bool) (j : Json) (h : IsNumber j) :
    (∃ b, j = .bool b) ∨ ∃ n, scanNumber (toStr printable j) = some (n, []) ∧
      j = if n.isInt then .int n.toInt else .float n.toFloat := by
  cases j with
  | bool b => exact .inl ⟨b, rfl⟩
  | int m =>
      right
      have hscan := scanNumber_intText m [] trivial
      rw [List.append_nil] at hscan
      refine ⟨_, hscan, ?_⟩
      rw [if_pos (by rfl), toInt_intText]
  | float x =>
      right
      obtain ⟨d, hd⟩ := Option.isSome_iff_exists.mp h
      obtain ⟨n, hscan, hint, hval⟩ := finiteRepr_scan x d hd
      refine ⟨n, ?_, ?_⟩
      · simpa only [toStr, repr, reprFloat, hd] using hscan
      · rw [hint, hval]
        rfl
  | _ => cases h

theorem toStr_number_injective (printable : CodePoint → Bool) (j k : Json) (hj : IsNumber j)
    (hk : IsNumber k) (h : toStr printable j = toStr printable k) : j = k := by
  have hbool : ∀ (b : Bool) (n : NumberText), scanNumber (toStr printable (.bool b)) ≠ some (n, []) := by
    intro b n hn
    cases b <;> cases hn
  rcases toStr_number printable j hj with ⟨b, rfl⟩ | ⟨n, hn, rfl⟩ <;>
    rcases toStr_number printable k hk with ⟨c, rfl⟩ | ⟨m, hm, rfl⟩
  · have hne : py "True" ≠ py "False" := by decide
    cases b <;> cases c
    · rfl
    · exact absurd h.symm hne
    · exact absurd h hne
    · rfl
  · exact absurd (h ▸ hm) (hbool b m)
  · exact absurd (h ▸ hn) (hbool c n)
  · rw [h, hm] at hn
    obtain ⟨rfl, -⟩ := Prod.mk.inj (Option.some.inj hn)
    rfl

-- The text of a number has no bar, so a bar ends it.
theorem toStr_number_no_bar (printable : CodePoint → Bool) (j : Json) (h : IsNumber j) :
    cp '|' ∉ toStr printable j := by
  rcases toStr_number printable j h with ⟨b, rfl⟩ | ⟨n, hn, -⟩
  · cases b
    · change cp '|' ∉ py "False"
      decide
    · change cp '|' ∉ py "True"
      decide
  · intro hbar
    obtain ⟨number, hs, -, hchars⟩ := scanNumber_chars _ _ n hn
    rw [List.append_nil] at hs
    rw [hs] at hbar
    exact absurd (hchars _ hbar) (by decide)

end Numbers

end V91Core.Json
