import V91Core.Python.Float
import V91Core.Python.Text

namespace V91Core.Python

def natText (n : Nat) : PyStr := (Nat.toDigits 10 n).map cp

def intText (n : Int) : PyStr := if n < 0 then cp '-' :: natText n.natAbs else natText n.natAbs

def hexChar (n : Nat) : CodePoint := chr (if n < 10 then 0x30 + n else 0x57 + n)

def natOfDigits (s : PyStr) : Nat := s.foldl (fun n c => 10 * n + (c.val - 0x30)) 0

-- What may follow a number without becoming part of it.
def NumberEnd : PyStr → Prop
  | [] => True
  | c :: _ => c.isDigit = false ∧ c ≠ cp '.' ∧ c ≠ cp 'e' ∧ c ≠ cp 'E'

structure NumberText where
  neg : Bool
  whole : PyStr
  frac : PyStr
  exp : Option Int
deriving DecidableEq

namespace NumberText

def isInt (n : NumberText) : Bool := n.frac = [] && n.exp = none

def toInt (n : NumberText) : Int :=
  if n.neg then -(natOfDigits n.whole : Int) else natOfDigits n.whole

def toFloat (n : NumberText) : Float :=
  decimalToFloat n.neg (natOfDigits (n.whole ++ n.frac)) (n.exp.getD 0 - n.frac.length)

end NumberText

def scanWhole : PyStr → Option (PyStr × PyStr)
  | [] => none
  | c :: rest =>
      if c = cp '0' then some ([c], rest)
      else if c.isDigit then
        some (c :: rest.takeWhile CodePoint.isDigit, rest.dropWhile CodePoint.isDigit)
      else none

def scanFraction : PyStr → PyStr × PyStr
  | [] => ([], [])
  | c :: rest =>
      if c = cp '.' ∧ rest.takeWhile CodePoint.isDigit ≠ [] then
        (rest.takeWhile CodePoint.isDigit, rest.dropWhile CodePoint.isDigit)
      else ([], c :: rest)

def unsigned : PyStr → PyStr
  | [] => []
  | c :: rest => if c = cp '+' ∨ c = cp '-' then rest else c :: rest

def scanExponent : PyStr → Option Int × PyStr
  | [] => (none, [])
  | c :: rest =>
      let digits := (unsigned rest).takeWhile CodePoint.isDigit
      if (c = cp 'e' ∨ c = cp 'E') ∧ digits ≠ [] then
        (some (if rest.head? = some (cp '-') then -(natOfDigits digits : Int) else natOfDigits digits),
          (unsigned rest).dropWhile CodePoint.isDigit)
      else (none, c :: rest)

-- The number grammar of the JSON scanner. A point or an exponent mark without
-- digits is left unread.
def scanNumber (s : PyStr) : Option (NumberText × PyStr) :=
  let neg := s.head? = some (cp '-')
  match scanWhole (if neg then s.tail else s) with
  | none => none
  | some (whole, rest) =>
      let (frac, rest) := scanFraction rest
      let (exp, rest) := scanExponent rest
      some (⟨neg, whole, frac, exp⟩, rest)

-- The layout of `repr`: `digits` stand after the point of `0.digits`, scaled by
-- ten to the power `point`.
def floatLayout (neg : Bool) (digits : PyStr) (point : Int) : PyStr :=
  let sign := if neg then [cp '-'] else []
  if point ≤ -4 ∨ 16 < point then
    let exp := point - 1
    let expDigits := natText exp.natAbs
    sign ++ digits.take 1 ++ (if digits.length = 1 then [] else cp '.' :: digits.drop 1) ++
      [cp 'e', if exp < 0 then cp '-' else cp '+'] ++
      (if expDigits.length < 2 then cp '0' :: expDigits else expDigits)
  else if point ≤ 0 then
    sign ++ [cp '0', cp '.'] ++ List.replicate (-point).toNat (cp '0') ++ digits
  else if point < digits.length then
    sign ++ digits.take point.toNat ++ [cp '.'] ++ digits.drop point.toNat
  else
    sign ++ digits ++ List.replicate (point.toNat - digits.length) (cp '0') ++ [cp '.', cp '0']

def decimalLayout (neg : Bool) (m : Nat) (e : Int) : PyStr :=
  let digits := natText m
  let stripped := digits.rdropWhile (· = cp '0')
  floatLayout neg (if stripped = [] then [cp '0'] else stripped) (digits.length + e)

-- The decimals of at most `n` digits next to an exact one, the nearest first.
def nearest (d : Decimal) (n : Nat) : List (Nat × Int) :=
  let length := (natText d.digits).length
  if length ≤ n then [(d.digits, d.exponent)]
  else
    let unit := 10 ^ (length - n)
    let down := d.digits / unit
    let twice := 2 * (d.digits % unit)
    let e := d.exponent + (length - n : Nat)
    if twice < unit ∨ (twice = unit ∧ down % 2 = 0) then [(down, e), (down + 1, e)]
    else [(down + 1, e), (down, e)]

def readsAs (x : Float) (s : PyStr) : Bool :=
  match scanNumber s with
  | some (n, []) => !n.isInt && n.toFloat = x
  | _ => false

def exponentLayout (neg : Bool) (m : Nat) (e : Int) : PyStr :=
  (if neg then [cp '-'] else []) ++ natText m ++ cp 'e' :: intText e

-- `repr` of a finite float: the shortest decimal that reads back as the same
-- value. Seventeen digits always suffice, so the last branch is never taken.
def finiteRepr (x : Float) (d : Decimal) : PyStr :=
  let texts := (List.range' 1 17).flatMap fun n =>
    (nearest d n).map fun c => decimalLayout d.neg c.1 c.2
  match texts.find? (readsAs x) with
  | some text => text
  | none => exponentLayout d.neg d.digits d.exponent

theorem cp_val (c : Char) : (cp c).val = c.toNat := by
  have h : c.toNat < 0x110000 := by
    have := c.valid
    simp only [UInt32.isValidChar, Nat.isValidChar] at this
    change c.val.toNat < _
    omega
  simp [cp, Nat.mod_eq_of_lt h]

theorem isDigit_cp (c : Char) : (cp c).isDigit = c.isDigit := by
  have h : c.toNat = c.val.toNat := rfl
  rw [Bool.eq_iff_iff]
  simp only [CodePoint.isDigit, cp_val, Char.isDigit, ge_iff_le, UInt32.le_iff_toNat_le, h,
    Bool.and_eq_true, decide_eq_true_eq]
  rfl

theorem natText_isDigit (n : Nat) (c : CodePoint) (h : c ∈ natText n) : c.isDigit = true := by
  obtain ⟨d, hd, rfl⟩ := List.mem_map.mp h
  rw [isDigit_cp]
  exact Nat.isDigit_of_mem_toDigits (by decide) (by decide) hd

theorem natText_ne_nil (n : Nat) : natText n ≠ [] :=
  fun h => Nat.toDigits_ne_nil (List.map_eq_nil_iff.mp h)

theorem natOfDigits_natText (n : Nat) : natOfDigits (natText n) = n := by
  have h := @Nat.ofDigitChars_toDigits 10 n (by decide) (by decide)
  rw [Nat.ofDigitChars_eq_foldl] at h
  rw [natOfDigits, natText, List.foldl_map]
  simp only [cp_val]
  exact h

theorem natText_injective (m n : Nat) (h : natText m = natText n) : m = n := by
  rw [← natOfDigits_natText m, h, natOfDigits_natText]

-- No leading zero.
theorem natText_head (n : Nat) (h : 0 < n) : (natText n).head? ≠ some (cp '0') := by
  induction n using Nat.strong_induction_on with
  | _ n ih =>
      rw [natText, Nat.toDigits_eq_if (by decide)]
      split
      · rename_i hn
        have hdigit : n.digitChar ≠ '0' := fun h0 => by
          rw [Nat.digitChar_eq_zero] at h0
          omega
        have hinj : cp n.digitChar = cp '0' → n.digitChar = '0' := fun he => by
          have := congrArg Fin.val he
          rw [cp_val, cp_val] at this
          exact Char.toNat_inj.mp this
        simpa using fun he => hdigit (hinj he)
      · have hq := ih (n / 10) (by omega) (by omega)
        have hne := natText_ne_nil (n / 10)
        rw [natText] at hq hne
        rwa [List.map_append, List.head?_append_of_ne_nil _ hne]

section Scan

theorem span_append (s r : PyStr)
    (h : ∀ c, (s.dropWhile CodePoint.isDigit ++ r).head? = some c → c.isDigit = false) :
    (s ++ r).takeWhile CodePoint.isDigit = s.takeWhile CodePoint.isDigit ∧
      (s ++ r).dropWhile CodePoint.isDigit = s.dropWhile CodePoint.isDigit ++ r := by
  induction s with
  | nil =>
      cases r with
      | nil => simp
      | cons c r => simp [h c rfl]
  | cons c s ih =>
      by_cases hc : c.isDigit = true
      · simp only [List.dropWhile_cons, hc, if_true] at h
        simpa [hc] using ih h
      · simp [hc]

theorem NumberEnd.head (r : PyStr) (c : CodePoint) (h : NumberEnd r) (hc : r.head? = some c) :
    c.isDigit = false ∧ c ≠ cp '.' ∧ c ≠ cp 'e' ∧ c ≠ cp 'E' := by
  cases r with
  | nil => cases hc
  | cons d r =>
      obtain rfl := by simpa using hc
      exact h

theorem scanWhole_append (s r whole rest : PyStr) (h : scanWhole s = some (whole, rest))
    (hr : ∀ c, (rest ++ r).head? = some c → c.isDigit = false) :
    scanWhole (s ++ r) = some (whole, rest ++ r) := by
  cases s with
  | nil => cases h
  | cons c s =>
      simp only [scanWhole, List.cons_append] at h ⊢
      split_ifs at h ⊢ with h₀ h₁ <;> obtain ⟨rfl, rfl⟩ := Prod.mk.inj (Option.some.inj h)
      · rfl
      · obtain ⟨ht, hd⟩ := span_append s r hr
        rw [ht, hd]

theorem scanFraction_append (s r frac rest : PyStr) (h : scanFraction s = (frac, rest))
    (hr : ∀ c, (rest ++ r).head? = some c → c.isDigit = false ∧ c ≠ cp '.') :
    scanFraction (s ++ r) = (frac, rest ++ r) := by
  cases s with
  | nil =>
      obtain ⟨rfl, rfl⟩ := Prod.mk.inj h
      cases r with
      | nil => rfl
      | cons c r => simp [scanFraction, (hr c rfl).2]
  | cons c s =>
      simp only [scanFraction, List.cons_append] at h ⊢
      by_cases hc : c = cp '.' ∧ s.takeWhile CodePoint.isDigit ≠ []
      · rw [if_pos hc] at h
        obtain ⟨rfl, rfl⟩ := Prod.mk.inj h
        obtain ⟨ht, hd⟩ := span_append s r fun c hc => (hr c hc).1
        rw [ht, hd, if_pos hc]
      · rw [if_neg hc] at h
        obtain ⟨rfl, rfl⟩ := Prod.mk.inj h
        have hdot := (hr c rfl).2
        rw [if_neg fun hc' => hdot hc'.1]
        rfl

theorem scanExponent_append (s r rest : PyStr) (exp : Option Int) (h : scanExponent s = (exp, rest))
    (hr : NumberEnd (rest ++ r)) : scanExponent (s ++ r) = (exp, rest ++ r) := by
  cases s with
  | nil =>
      obtain ⟨rfl, rfl⟩ := Prod.mk.inj h
      cases r with
      | nil => rfl
      | cons c r => simp [scanExponent, hr.2.2.1, hr.2.2.2]
  | cons c s =>
      simp only [scanExponent, List.cons_append] at h ⊢
      by_cases hc : (c = cp 'e' ∨ c = cp 'E') ∧ (unsigned s).takeWhile CodePoint.isDigit ≠ []
      · rw [if_pos hc] at h
        obtain ⟨rfl, rfl⟩ := Prod.mk.inj h
        have hs : s ≠ [] := by
          rintro rfl
          exact hc.2 rfl
        have hu : unsigned (s ++ r) = unsigned s ++ r := by
          cases s with
          | nil => exact absurd rfl hs
          | cons d s =>
              simp only [List.cons_append, unsigned]
              split <;> rfl
        obtain ⟨ht, hd⟩ := span_append (unsigned s) r fun c hc => (hr.head _ c hc).1
        rw [hu, ht, hd, if_pos hc, List.head?_append_of_ne_nil _ hs]
      · rw [if_neg hc] at h
        obtain ⟨rfl, rfl⟩ := Prod.mk.inj h
        rw [if_neg fun hc' => hc'.1.elim hr.2.2.1 hr.2.2.2]
        rfl

theorem scanFraction_of_ne (c : CodePoint) (s : PyStr) (h : c ≠ cp '.') :
    scanFraction (c :: s) = ([], c :: s) := by
  rw [scanFraction, if_neg fun hc => h hc.1]

theorem scanExponent_of_ne (c : CodePoint) (s : PyStr) (he : c ≠ cp 'e') (hE : c ≠ cp 'E') :
    scanExponent (c :: s) = (none, c :: s) := by
  simp only [scanExponent]
  rw [if_neg fun hc => hc.1.elim he hE]

theorem scanExponent_head (s r rest : PyStr) (exp : Option Int) (h : scanExponent s = (exp, rest))
    (hr : NumberEnd (rest ++ r)) (c : CodePoint) (hc : (s ++ r).head? = some c) :
    c.isDigit = false ∧ c ≠ cp '.' := by
  cases s with
  | nil =>
      obtain ⟨rfl, rfl⟩ := Prod.mk.inj h
      have := hr.head _ c hc
      exact ⟨this.1, this.2.1⟩
  | cons d s =>
      obtain rfl := by simpa using hc
      by_cases he : d = cp 'e'
      · subst he
        decide
      by_cases hE : d = cp 'E'
      · subst hE
        decide
      rw [scanExponent_of_ne d s he hE] at h
      obtain ⟨rfl, rfl⟩ := Prod.mk.inj h
      exact ⟨hr.1, hr.2.1⟩

theorem scanFraction_head (s r frac rest : PyStr) (h : scanFraction s = (frac, rest))
    (hr : ∀ c, (rest ++ r).head? = some c → c.isDigit = false) (c : CodePoint)
    (hc : (s ++ r).head? = some c) : c.isDigit = false := by
  cases s with
  | nil =>
      obtain ⟨rfl, rfl⟩ := Prod.mk.inj h
      exact hr c hc
  | cons d s =>
      obtain rfl := by simpa using hc
      by_cases hd : d = cp '.'
      · subst hd
        decide
      · rw [scanFraction_of_ne d s hd] at h
        obtain ⟨rfl, rfl⟩ := Prod.mk.inj h
        exact hr d rfl

-- A number that ends before `rest` ends there whatever follows `rest`.
theorem scanNumber_append (s r rest : PyStr) (n : NumberText) (h : scanNumber s = some (n, rest))
    (hr : NumberEnd (rest ++ r)) : scanNumber (s ++ r) = some (n, rest ++ r) := by
  simp only [scanNumber] at h ⊢
  cases hw : scanWhole (if s.head? = some (cp '-') then s.tail else s) with
  | none => simp [hw] at h
  | some pair =>
      obtain ⟨whole, rest₁⟩ := pair
      obtain ⟨frac, rest₂, hf⟩ : ∃ frac rest₂, scanFraction rest₁ = (frac, rest₂) := ⟨_, _, rfl⟩
      obtain ⟨exp, rest₃, he⟩ : ∃ exp rest₃, scanExponent rest₂ = (exp, rest₃) := ⟨_, _, rfl⟩
      simp only [hw, hf, he, Option.some.injEq, Prod.mk.injEq] at h
      obtain ⟨rfl, rfl⟩ := h
      have h₂ := scanExponent_head rest₂ r rest₃ exp he hr
      have h₁ := scanFraction_head rest₁ r frac rest₂ hf fun c hc => (h₂ c hc).1
      have hs : s ≠ [] := by
        rintro rfl
        cases hw
      have hbody : (if (s ++ r).head? = some (cp '-') then (s ++ r).tail else s ++ r) =
          (if s.head? = some (cp '-') then s.tail else s) ++ r := by
        rw [List.head?_append_of_ne_nil _ hs, List.tail_append_of_ne_nil hs]
        split <;> rfl
      rw [hbody, scanWhole_append _ r whole rest₁ hw h₁, List.head?_append_of_ne_nil _ hs]
      simp only [scanFraction_append rest₁ r frac rest₂ hf h₂,
        scanExponent_append rest₂ r rest₃ exp he hr]

end Scan

section Texts

theorem takeWhile_natText (n : Nat) (r : PyStr) (hr : ∀ c, r.head? = some c → c.isDigit = false) :
    (natText n ++ r).takeWhile CodePoint.isDigit = natText n ∧
      (natText n ++ r).dropWhile CodePoint.isDigit = r := by
  have hall := natText_isDigit n
  have htake := List.takeWhile_eq_self_iff.mpr hall
  have hdrop := List.dropWhile_eq_nil_iff.mpr hall
  obtain ⟨ht, hd⟩ := span_append (natText n) r (by rwa [hdrop, List.nil_append])
  rw [ht, hd, htake, hdrop]
  exact ⟨rfl, rfl⟩

theorem scanWhole_natText (n : Nat) (r : PyStr) (hr : ∀ c, r.head? = some c → c.isDigit = false) :
    scanWhole (natText n ++ r) = some (natText n, r) := by
  by_cases h0 : n = 0
  · subst h0
    rfl
  · have hall := natText_isDigit n
    have hhead := natText_head n (by omega)
    obtain ⟨ht, hd⟩ := takeWhile_natText n r hr
    cases hn : natText n with
    | nil => exact absurd hn (natText_ne_nil n)
    | cons c s =>
        rw [hn] at hall hhead ht hd
        have hc := hall c (by simp)
        have hc0 : c ≠ cp '0' := fun he => hhead (by simp [he])
        simp only [List.cons_append, List.takeWhile_cons, List.dropWhile_cons, hc, if_true,
          List.cons.injEq, true_and] at ht hd
        simp only [List.cons_append, scanWhole, if_neg hc0, hc, if_true, ht, hd]

theorem natText_head_ne (n : Nat) (r : PyStr) (c : CodePoint) (hc : c.isDigit = false) :
    (natText n ++ r).head? ≠ some c := by
  rw [List.head?_append_of_ne_nil _ (natText_ne_nil n)]
  intro h
  have := natText_isDigit n c (List.mem_of_mem_head? h)
  rw [hc] at this
  cases this

theorem scanNumber_stages (neg : Bool) (body rest₁ rest₂ rest₃ whole frac : PyStr) (exp : Option Int)
    (hbody : body.head? ≠ some (cp '-')) (hw : scanWhole body = some (whole, rest₁))
    (hf : scanFraction rest₁ = (frac, rest₂)) (he : scanExponent rest₂ = (exp, rest₃)) :
    scanNumber ((if neg then [cp '-'] else []) ++ body) = some (⟨neg, whole, frac, exp⟩, rest₃) := by
  cases neg
  · simp only [Bool.false_eq_true, if_false, List.nil_append, scanNumber, hbody, decide_false,
      hw, hf, he]
  · simp [scanNumber, hw, hf, he]

theorem scanNumber_intText (n : Int) (r : PyStr) (hr : NumberEnd r) :
    scanNumber (intText n ++ r) = some (⟨n < 0, natText n.natAbs, [], none⟩, r) := by
  have hhead := fun c hc => (hr.head r c hc).1
  have hfrac : scanFraction r = ([], r) := by
    cases r with
    | nil => rfl
    | cons c r => exact scanFraction_of_ne c r hr.2.1
  have hexp : scanExponent r = (none, r) := by
    cases r with
    | nil => rfl
    | cons c r => exact scanExponent_of_ne c r hr.2.2.1 hr.2.2.2
  have hminus := natText_head_ne n.natAbs r (cp '-') (by decide)
  have hstages := scanNumber_stages (n < 0) _ _ _ _ _ _ _ hminus
    (scanWhole_natText n.natAbs r hhead) hfrac hexp
  rw [← hstages]
  unfold intText
  split <;> simp [*]

theorem toInt_intText (n : Int) : NumberText.toInt ⟨n < 0, natText n.natAbs, [], none⟩ = n := by
  simp only [NumberText.toInt, natOfDigits_natText, decide_eq_true_eq]
  split <;> omega

theorem scanExponent_intText (e : Int) :
    scanExponent (cp 'e' :: intText e) = (some e, []) := by
  have hu : unsigned (intText e) = natText e.natAbs := by
    unfold intText
    split
    · rfl
    · cases hn : natText e.natAbs with
      | nil => rfl
      | cons c s =>
          have hplus := natText_head_ne e.natAbs [] (cp '+') (by decide)
          have hminus := natText_head_ne e.natAbs [] (cp '-') (by decide)
          simp only [hn, List.append_nil, List.head?_cons, ne_eq, Option.some.injEq] at hplus hminus
          rw [unsigned, if_neg (by simp [hplus, hminus])]
  have hsign : (intText e).head? = some (cp '-') ↔ e < 0 := by
    have hminus := natText_head_ne e.natAbs [] (cp '-') (by decide)
    rw [List.append_nil] at hminus
    unfold intText
    split <;> simp [*]
  obtain ⟨ht, hd⟩ := takeWhile_natText e.natAbs [] (by simp)
  rw [List.append_nil] at ht hd
  simp only [scanExponent, hu, ht, hd, hsign, natOfDigits_natText]
  rw [if_pos ⟨.inl trivial, natText_ne_nil _⟩]
  congr 2
  split <;> omega

theorem scanNumber_exponentLayout (neg : Bool) (m : Nat) (e : Int) :
    scanNumber (exponentLayout neg m e) = some (⟨neg, natText m, [], some e⟩, []) := by
  have hminus := natText_head_ne m (cp 'e' :: intText e) (cp '-') (by decide)
  have hwhole := scanWhole_natText m (cp 'e' :: intText e) (by
    intro c hc
    obtain rfl := by simpa using hc
    decide)
  have hfrac := scanFraction_of_ne (cp 'e') (intText e) (by decide)
  have hstages := scanNumber_stages neg _ _ _ _ _ _ _ hminus hwhole hfrac (scanExponent_intText e)
  rw [← hstages, exponentLayout, List.append_assoc]

theorem finiteRepr_scan (x : Float) (d : Decimal) (h : exactDecimal x = some d) :
    ∃ n, scanNumber (finiteRepr x d) = some (n, []) ∧ n.isInt = false ∧ n.toFloat = x := by
  unfold finiteRepr
  simp only
  split
  · rename_i text htext
    have hreads := List.find?_some htext
    unfold readsAs at hreads
    split at hreads
    · rename_i n hn
      simp only [Bool.and_eq_true, Bool.not_eq_true', decide_eq_true_eq] at hreads
      exact ⟨n, hn, hreads.1, hreads.2⟩
    · cases hreads
  · refine ⟨_, scanNumber_exponentLayout d.neg d.digits d.exponent, rfl, ?_⟩
    simp only [NumberText.toFloat, List.append_nil, natOfDigits_natText, Option.getD_some,
      List.length_nil, Nat.cast_zero, Int.sub_zero]
    exact decimalToFloat_exact x d h

-- The characters of a number.
def isNumberChar (c : CodePoint) : Bool :=
  c.isDigit || c = cp '-' || c = cp '+' || c = cp '.' || c = cp 'e' || c = cp 'E'

theorem isNumberChar_of_takeWhile (s : PyStr) :
    ∀ c ∈ s.takeWhile CodePoint.isDigit, isNumberChar c = true := by
  intro c hc
  simp [isNumberChar, List.mem_takeWhile_imp hc]

theorem scanWhole_chars (s whole rest : PyStr) (h : scanWhole s = some (whole, rest)) :
    ∃ head, s = head ++ rest ∧ head ≠ [] ∧ ∀ c ∈ head, isNumberChar c = true := by
  cases s with
  | nil => cases h
  | cons c s =>
      simp only [scanWhole] at h
      split_ifs at h with h₀ h₁ <;> obtain ⟨rfl, rfl⟩ := Prod.mk.inj (Option.some.inj h)
      · subst h₀
        exact ⟨[cp '0'], rfl, by simp, List.forall_mem_singleton.mpr (by decide)⟩
      · refine ⟨c :: s.takeWhile CodePoint.isDigit, by simp, by simp, ?_⟩
        simpa [isNumberChar, h₁] using isNumberChar_of_takeWhile s

theorem scanFraction_chars (s : PyStr) :
    ∃ head, s = head ++ (scanFraction s).2 ∧ ∀ c ∈ head, isNumberChar c = true := by
  cases s with
  | nil => exact ⟨[], rfl, by simp⟩
  | cons c s =>
      simp only [scanFraction]
      split
      · rename_i hc
        refine ⟨c :: s.takeWhile CodePoint.isDigit, by simp, ?_⟩
        simpa [isNumberChar, hc.1] using isNumberChar_of_takeWhile s
      · exact ⟨[], rfl, by simp⟩

theorem unsigned_chars (s : PyStr) :
    ∃ sign, s = sign ++ unsigned s ∧ ∀ c ∈ sign, isNumberChar c = true := by
  cases s with
  | nil => exact ⟨[], rfl, by simp⟩
  | cons c s =>
      simp only [unsigned]
      split
      · rename_i hc
        exact ⟨[c], rfl, by rcases hc with rfl | rfl <;> simp [isNumberChar]⟩
      · exact ⟨[], rfl, by simp⟩

theorem scanExponent_chars (s : PyStr) :
    ∃ head, s = head ++ (scanExponent s).2 ∧ ∀ c ∈ head, isNumberChar c = true := by
  cases s with
  | nil => exact ⟨[], rfl, by simp⟩
  | cons c s =>
      simp only [scanExponent]
      split
      · rename_i hc
        obtain ⟨sign, hs, hsign⟩ := unsigned_chars s
        refine ⟨c :: sign ++ (unsigned s).takeWhile CodePoint.isDigit, ?_, ?_⟩
        · rw [List.append_assoc, List.takeWhile_append_dropWhile, List.cons_append, ← hs]
        · intro d hd
          rw [List.cons_append, List.mem_cons, List.mem_append] at hd
          rcases hd with rfl | hd | hd
          · rcases hc.1 with rfl | rfl <;> simp [isNumberChar]
          · exact hsign d hd
          · exact isNumberChar_of_takeWhile _ d hd
      · exact ⟨[], rfl, by simp⟩

theorem scanNumber_chars (s rest : PyStr) (n : NumberText) (h : scanNumber s = some (n, rest)) :
    ∃ number, s = number ++ rest ∧ number ≠ [] ∧ ∀ c ∈ number, isNumberChar c = true := by
  simp only [scanNumber] at h
  cases hw : scanWhole (if s.head? = some (cp '-') then s.tail else s) with
  | none => simp [hw] at h
  | some pair =>
      obtain ⟨whole, rest₁⟩ := pair
      simp only [hw, Option.some.injEq, Prod.mk.injEq] at h
      obtain ⟨head₁, hs₁, hne, hc₁⟩ := scanWhole_chars _ _ _ hw
      obtain ⟨head₂, hs₂, hc₂⟩ := scanFraction_chars rest₁
      obtain ⟨head₃, hs₃, hc₃⟩ := scanExponent_chars (scanFraction rest₁).2
      rw [h.2] at hs₃
      have hbody : (if s.head? = some (cp '-') then s.tail else s) =
          head₁ ++ head₂ ++ head₃ ++ rest := by
        rw [hs₁, hs₂, hs₃]
        simp only [List.append_assoc]
      have hall : ∀ c ∈ head₁ ++ head₂ ++ head₃, isNumberChar c = true := by
        intro c hc
        simp only [List.mem_append] at hc
        exact hc.elim (fun h => h.elim (hc₁ c) (hc₂ c)) (hc₃ c)
      split at hbody
      · rename_i hminus
        obtain ⟨t, rfl⟩ := List.head?_eq_some_iff.mp hminus
        refine ⟨cp '-' :: (head₁ ++ head₂ ++ head₃), by simpa using hbody, by simp, ?_⟩
        simpa [isNumberChar] using hall
      · exact ⟨head₁ ++ head₂ ++ head₃, hbody, by simp [hne], hall⟩

theorem scanNumber_whole (s rest : PyStr) (n : NumberText) (h : scanNumber s = some (n, rest)) :
    n.whole ≠ [] ∧ ∀ c ∈ n.whole, c.isDigit = true := by
  simp only [scanNumber] at h
  cases hw : scanWhole (if s.head? = some (cp '-') then s.tail else s) with
  | none => simp [hw] at h
  | some pair =>
      obtain ⟨whole, rest₁⟩ := pair
      simp only [hw, Option.some.injEq, Prod.mk.injEq] at h
      obtain ⟨rfl, -⟩ := h
      unfold scanWhole at hw
      split at hw
      · cases hw
      · split_ifs at hw with h₀ h₁ <;> obtain ⟨rfl, rfl⟩ := Prod.mk.inj (Option.some.inj hw)
        · subst h₀
          exact ⟨by simp, List.forall_mem_singleton.mpr (by decide)⟩
        · exact ⟨by simp, List.forall_mem_cons.mpr ⟨h₁, fun c hc => List.mem_takeWhile_imp hc⟩⟩

theorem NumberText.natAbs_toInt (n : NumberText) : n.toInt.natAbs = natOfDigits n.whole := by
  unfold NumberText.toInt
  split <;> simp

theorem natOfDigits_lt (s : PyStr) (h : ∀ c ∈ s, c.isDigit = true) :
    natOfDigits s < 10 ^ s.length := by
  suffices hs : ∀ n, s.foldl (fun n c => 10 * n + (c.val - 0x30)) n < (n + 1) * 10 ^ s.length by
    simpa [natOfDigits] using hs 0
  induction s with
  | nil => simp
  | cons c s ih =>
      intro n
      obtain ⟨hc, hs⟩ := List.forall_mem_cons.mp h
      simp only [CodePoint.isDigit, Bool.and_eq_true, decide_eq_true_eq] at hc
      calc s.foldl (fun n c => 10 * n + (c.val - 0x30)) (10 * n + (c.val - 0x30))
          < (10 * n + (c.val - 0x30) + 1) * 10 ^ s.length := ih hs _
        _ ≤ (10 * (n + 1)) * 10 ^ s.length := Nat.mul_le_mul_right _ (by omega)
        _ = (n + 1) * 10 ^ (c :: s).length := by rw [List.length_cons, Nat.pow_succ]; ring

theorem natText_length_le (whole : PyStr) (h : whole ≠ []) (hd : ∀ c ∈ whole, c.isDigit = true) :
    (natText (natOfDigits whole)).length ≤ whole.length := by
  rw [natText, List.length_map, Nat.length_toDigits_le_iff (by decide) (List.length_pos_of_ne_nil h)]
  exact natOfDigits_lt whole hd

end Texts

end V91Core.Python
