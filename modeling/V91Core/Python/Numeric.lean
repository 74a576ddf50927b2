import V91Core.Python.Exc

namespace V91Core.Python

-- An `int` that is not a `bool`, or a `float`.
inductive PyNum where
  | int (n : Int)
  | float (x : Float)
deriving DecidableEq

namespace PyNum

-- `isinstance(value, (int, float)) and not isinstance(value, bool)`.
def ofJson : Json → Option PyNum
  | .int n => some (.int n)
  | .float x => some (.float x)
  | _ => none

-- The value of a number in the extended rationals. A NaN has none.
def value : PyNum → Option (WithBot (WithTop ℚ))
  | .int n => some ((n : ℚ) : WithTop ℚ)
  | .float x =>
      match exactDecimal x with
      | some d => some (((if d.neg then -1 else 1) * d.digits * 10 ^ d.exponent : ℚ) : WithTop ℚ)
      | none =>
          match x.toModel.unpack with
          | .infinity .positive => some (⊤ : WithTop ℚ)
          | .infinity .negative => some ⊥
          | _ => none

-- Comparison is exact, also between an int and a float.
def le (a b : PyNum) : Bool :=
  match a.value, b.value with
  | some p, some q => p ≤ q
  | _, _ => false

def lt (a b : PyNum) : Bool :=
  match a.value, b.value with
  | some p, some q => p < q
  | _, _ => false

-- `float(value)`. An int that rounds to 2 ** 1024 or more is refused.
def toFloat : PyNum → Except PyExc Float
  | .int n =>
      let x := decimalToFloat (n < 0) n.natAbs 0
      if Json.isFinite x then .ok x else .error .overflowError
  | .float x => .ok x

-- `math.isfinite(value)`.
def isFinite (a : PyNum) : Except PyExc Bool := a.toFloat.map Json.isFinite

def add : PyNum → PyNum → Except PyExc PyNum
  | .int m, .int n => .ok (.int (m + n))
  | a, b => do
      let x ← a.toFloat
      let y ← b.toFloat
      .ok (.float (x + y))

theorem toFloat_error (a : PyNum) (e : PyExc) (h : a.toFloat = .error e) : e = .overflowError := by
  cases a with
  | int n =>
      simp only [toFloat] at h
      split at h
      · cases h
      · exact (Except.error.inj h).symm
  | float x => cases h

theorem add_error (a b : PyNum) (e : PyExc) (h : a.add b = .error e) : e = .overflowError := by
  have hfloats : (do let x ← a.toFloat; let y ← b.toFloat; .ok (PyNum.float (x + y))) = Except.error e →
      e = .overflowError := by
    intro hsum
    cases ha : a.toFloat with
    | error e' =>
        rw [ha] at hsum
        obtain rfl := Except.error.inj hsum
        exact toFloat_error a _ ha
    | ok x =>
        cases hb : b.toFloat with
        | error e' =>
            rw [ha, hb] at hsum
            obtain rfl := Except.error.inj hsum
            exact toFloat_error b _ hb
        | ok y =>
            rw [ha, hb] at hsum
            cases hsum
  cases a with
  | int m =>
      cases b with
      | int n => cases h
      | float y => exact hfloats h
  | float x => exact hfloats h

def sub : PyNum → PyNum → Except PyExc PyNum
  | .int m, .int n => .ok (.int (m - n))
  | a, b => do
      let x ← a.toFloat
      let y ← b.toFloat
      .ok (.float (x - y))

def neg : PyNum → PyNum
  | .int n => .int (-n)
  | .float x => .float (-x)

end PyNum

end V91Core.Python
