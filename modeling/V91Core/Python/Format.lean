import V91Core.Python.Number

namespace V91Core.Python

-- `m / n` to the nearest integer, ties to even.
def divRound (m n : Nat) : Nat :=
  let q := m / n
  let r := m % n
  if 2 * r < n then q else if n < 2 * r then q + 1 else q + q % 2

-- No integer is nearer to the quotient.
theorem divRound_nearest (m n : Nat) (hn : 0 < n) :
    2 * m ≤ 2 * (n * divRound m n) + n ∧ 2 * (n * divRound m n) ≤ 2 * m + n := by
  have hdiv := Nat.div_add_mod m n
  have hmod := Nat.mod_lt m hn
  have hodd := Nat.mod_two_eq_zero_or_one (m / n)
  simp only [divRound]
  split
  · omega
  · have hnext : n * (m / n + 1) = n * (m / n) + n := Nat.mul_succ _ _
    split
    · omega
    · rcases hodd with h | h
      · rw [h, Nat.add_zero]
        omega
      · rw [h, hnext]
        omega

-- A decimal in units of `10 ** -places`.
def Decimal.scaled (d : Decimal) (places : Nat) : Nat :=
  let shift := d.exponent + places
  if 0 ≤ shift then d.digits * 10 ^ shift.toNat else divRound d.digits (10 ^ (-shift).toNat)

def padZeros (width : Nat) (s : PyStr) : PyStr := List.replicate (width - s.length) (cp '0') ++ s

-- `format(x, ".1f")` and the like. The sign of a value that rounds to zero stays.
def formatFixed (places : Nat) (x : Float) : PyStr :=
  match exactDecimal x with
  | some d =>
      let n := d.scaled places
      let whole := natText (n / 10 ^ places)
      let fraction := padZeros places (natText (n % 10 ^ places))
      let text := if places = 0 then whole else whole ++ cp '.' :: fraction
      if d.neg then cp '-' :: text else text
  | none =>
      match x.toModel.unpack with
      | .infinity .positive => py "inf"
      | .infinity .negative => py "-inf"
      | _ => py "nan"

-- `round(x, places)`.
def roundFloat (places : Nat) (x : Float) : Float :=
  match exactDecimal x with
  | some d => decimalToFloat d.neg (d.scaled places) (-places)
  | none => x

example : formatFixed 1 0.25 = py "0.2" := by decide +kernel

example : roundFloat 2 (45.0 - 90.004) = -45.0 := by decide +kernel

end V91Core.Python
