import V91Core.Json.RoundTrip

namespace V91Core.Json

open V91Core.Python

section Numbers

-- What cannot continue a number.
def Breaks (more : PyStr) : Prop := ∀ c, more.head? = some c → isNumberChar c = false

variable (more : PyStr) (hmore : Breaks more)

include hmore

theorem Breaks.notDigit : ∀ c, more.head? = some c → c.isDigit = false := by
  intro c hc
  have hnumber := hmore c hc
  simp only [isNumberChar, Bool.or_eq_false_iff] at hnumber
  tauto

theorem Breaks.span (s : PyStr) : (s ++ more).takeWhile CodePoint.isDigit = s.takeWhile CodePoint.isDigit ∧
    (s ++ more).dropWhile CodePoint.isDigit = s.dropWhile CodePoint.isDigit ++ more := by
  apply span_append
  intro c hc
  have hhead := List.head?_dropWhile_not CodePoint.isDigit s
  cases hdrop : s.dropWhile CodePoint.isDigit with
  | nil =>
      rw [hdrop] at hc
      exact hmore.notDigit more c hc
  | cons d rest =>
      rw [hdrop] at hc hhead
      obtain rfl := Option.some.inj hc
      exact hhead

theorem Breaks.ne (d : CodePoint) (hd : isNumberChar d = true) : more.head? ≠ some d := by
  intro hc
  rw [hmore d hc] at hd
  cases hd

theorem scanWhole_break (s : PyStr) : scanWhole (s ++ more) = (scanWhole s).map fun p => (p.1, p.2 ++ more) := by
  cases s with
  | nil =>
      rw [List.nil_append]
      cases more with
      | nil => rfl
      | cons c rest =>
          have hzero : c ≠ cp '0' := fun h => Breaks.ne _ hmore (cp '0') (by decide) (congrArg some h)
          have hdigit : ¬ c.isDigit = true := by
            rw [Breaks.notDigit _ hmore c rfl]
            exact Bool.false_ne_true
          simp only [scanWhole, if_neg hzero, if_neg hdigit]
          rfl
  | cons c s =>
      obtain ⟨htake, hdrop⟩ := Breaks.span more hmore s
      rw [List.cons_append, scanWhole, scanWhole, htake, hdrop]
      split
      · rfl
      split
      · rfl
      · rfl

theorem scanFraction_break (s : PyStr) :
    scanFraction (s ++ more) = ((scanFraction s).1, (scanFraction s).2 ++ more) := by
  cases s with
  | nil =>
      rw [List.nil_append]
      cases more with
      | nil => rfl
      | cons c rest =>
          have hdot : c ≠ cp '.' := fun h => Breaks.ne _ hmore (cp '.') (by decide) (congrArg some h)
          rw [scanFraction_of_ne c rest hdot]
          rfl
  | cons c s =>
      obtain ⟨htake, hdrop⟩ := Breaks.span more hmore s
      rw [List.cons_append, scanFraction, scanFraction, htake, hdrop]
      split
      · rfl
      · rfl

theorem scanExponent_break (s : PyStr) :
    scanExponent (s ++ more) = ((scanExponent s).1, (scanExponent s).2 ++ more) := by
  cases s with
  | nil =>
      rw [List.nil_append]
      cases more with
      | nil => rfl
      | cons c rest =>
          have he : c ≠ cp 'e' := fun h => Breaks.ne _ hmore (cp 'e') (by decide) (congrArg some h)
          have hE : c ≠ cp 'E' := fun h => Breaks.ne _ hmore (cp 'E') (by decide) (congrArg some h)
          rw [scanExponent_of_ne c rest he hE]
          rfl
  | cons c s =>
      have hunsigned : unsigned (s ++ more) = unsigned s ++ more := by
        cases s with
        | cons d s =>
            rw [List.cons_append, unsigned, unsigned]
            split
            · rfl
            · rfl
        | nil =>
            rw [List.nil_append]
            cases more with
            | nil => rfl
            | cons d rest =>
                have hplus : d ≠ cp '+' := fun h => Breaks.ne _ hmore (cp '+') (by decide) (congrArg some h)
                have hminus : d ≠ cp '-' := fun h => Breaks.ne _ hmore (cp '-') (by decide) (congrArg some h)
                have hsign : ¬ (d = cp '+' ∨ d = cp '-') := by tauto
                simp only [unsigned, if_neg hsign]
                rfl
      obtain ⟨htake, hdrop⟩ := Breaks.span more hmore (unsigned s)
      simp only [List.cons_append, scanExponent, hunsigned, htake, hdrop]
      by_cases hexp : (c = cp 'e' ∨ c = cp 'E') ∧ (unsigned s).takeWhile CodePoint.isDigit ≠ []
      · have hs : s ≠ [] := by
          rintro rfl
          exact hexp.2 rfl
        rw [if_pos hexp, if_pos hexp, List.head?_append_of_ne_nil _ hs]
      · rw [if_neg hexp, if_neg hexp]
        rfl

-- A number ends where it did, and what is no number stays none.
theorem scanNumber_break (s : PyStr) (hs : s ≠ []) :
    scanNumber (s ++ more) = (scanNumber s).map fun p => (p.1, p.2 ++ more) := by
  have hbody : (if (s ++ more).head? = some (cp '-') then (s ++ more).tail else s ++ more) =
      (if s.head? = some (cp '-') then s.tail else s) ++ more := by
    rw [List.head?_append_of_ne_nil _ hs, List.tail_append_of_ne_nil hs]
    split
    · rfl
    · rfl
  unfold scanNumber
  simp only
  rw [hbody, scanWhole_break more hmore, List.head?_append_of_ne_nil _ hs]
  cases scanWhole (if s.head? = some (cp '-') then s.tail else s) with
  | none => rfl
  | some pair =>
      simp only [Option.map_some, scanFraction_break more hmore, scanExponent_break more hmore]

end Numbers

section Strings

-- A scan goes on as its text does: what it has read stands, and where it failed
-- it can only succeed by reading some of what has been added.
def Steady (more s : PyStr) (r r' : Scan α) : Prop :=
  match r with
  | .ok (a, rest) => rest <:+ s ∧ r' = .ok (a, rest ++ more)
  | .error .recursion => r' = .error .recursion
  | .error _ => ∀ a rest, r' = .ok (a, rest) → rest.length < more.length

theorem steady_ok (more s : PyStr) (a : α) (rest : PyStr) (h : rest <:+ s) :
    Steady more s (.ok (a, rest)) (.ok (a, rest ++ more)) := ⟨h, rfl⟩

theorem steady_error (more s : PyStr) (e : DecodeError) (r' : Scan α) (he : e ≠ .recursion)
    (h : ∀ a rest, r' = .ok (a, rest) → rest.length < more.length) : Steady more s (.error e) r' := by
  cases e with
  | recursion => exact absurd rfl he
  | unreadable msg left => exact h
  | tooManyDigits => exact h
  | stuck => exact h

theorem Steady.suffix {more s t : PyStr} {r r' : Scan α} (h : Steady more s r r') (hst : s <:+ t) :
    Steady more t r r' := by
  cases r with
  | ok pair => exact ⟨h.1.trans hst, h.2⟩
  | error e =>
      cases e with
      | recursion => exact h
      | unreadable msg left => exact h
      | tooManyDigits => exact h
      | stuck => exact h

-- What follows a scan.
def andThen (r : Scan α) (k : α → PyStr → Scan β) : Scan β :=
  match r with
  | .error e => .error e
  | .ok (a, rest) => k a rest

theorem andThen_eq_ok (r : Scan α) (k : α → PyStr → Scan β) (b : β) (rest : PyStr) :
    andThen r k = .ok (b, rest) ↔ ∃ a mid, r = .ok (a, mid) ∧ k a mid = .ok (b, rest) := by
  cases r with
  | error e => simp [andThen]
  | ok pair =>
      constructor
      · intro h
        exact ⟨pair.1, pair.2, rfl, h⟩
      · rintro ⟨a, mid, hpair, hk⟩
        obtain rfl := Except.ok.inj hpair
        exact hk

theorem Steady.andThen {more s : PyStr} {r r' : Scan α} {k k' : α → PyStr → Scan β} (h : Steady more s r r')
    (hk : ∀ a rest, rest <:+ s → Steady more s (k a rest) (k' a (rest ++ more)))
    (hshrink : ∀ a rest b rest', k' a rest = .ok (b, rest') → rest'.length ≤ rest.length) :
    Steady more s (andThen r k) (andThen r' k') := by
  cases r with
  | ok pair =>
      obtain ⟨hsuffix, rfl⟩ := h
      exact hk pair.1 pair.2 hsuffix
  | error e =>
      by_cases he : e = .recursion
      · subst he
        obtain rfl : r' = .error .recursion := h
        rfl
      · refine steady_error _ _ _ _ he fun b rest hb => ?_
        obtain ⟨a, mid, rfl, hrest⟩ := (andThen_eq_ok _ _ _ _).mp hb
        have hmid : mid.length < more.length := by
          cases e with
          | recursion => exact absurd rfl he
          | unreadable msg left => exact h a mid rfl
          | tooManyDigits => exact h a mid rfl
          | stuck => exact h a mid rfl
        have := hshrink a mid b rest hrest
        omega

theorem Steady.map {more s : PyStr} {r r' : Scan α} (h : Steady more s r r') (f : α → β) :
    Steady more s (Json.andThen r fun a rest => .ok (f a, rest)) (Json.andThen r' fun a rest => .ok (f a, rest)) := by
  refine h.andThen (fun a rest hrest => steady_ok more s (f a) rest hrest) fun a rest b rest' hb => ?_
  obtain ⟨-, rfl⟩ := Prod.mk.inj (Except.ok.inj hb)
  exact Nat.le_refl _

theorem scanHex4_append (s more : PyStr) (h : 4 ≤ s.length) :
    scanHex4 (s ++ more) = (scanHex4 s).map fun p => (p.1, p.2 ++ more) := by
  match s, h with
  | a :: b :: c :: d :: rest, _ =>
      simp only [List.cons_append, scanHex4]
      split
      · rfl
      · rfl

theorem scanHex4_suffix (s rest : PyStr) (n : Nat) (h : scanHex4 s = some (n, rest)) : rest <:+ s := by
  unfold scanHex4 at h
  split at h
  · next a b c d tail =>
      split at h
      · obtain ⟨-, rfl⟩ := Prod.mk.inj (Option.some.inj h)
        exact ⟨[a, b, c, d], rfl⟩
      · cases h
  · cases h

theorem scanUnicode_length (s rest : PyStr) (u : CodePoint) (h : scanUnicode s = .ok (u, rest)) :
    rest.length + 4 ≤ s.length := by
  unfold scanUnicode at h
  split at h
  · cases h
  split at h
  · cases h
  next v tail hv =>
    have htail := scanHex4_length s tail v hv
    split at h
    · split at h
      · cases h
      next w after hw =>
        have hafter := scanHex4_length _ after w hw
        rw [List.length_drop] at hafter
        split at h
        · obtain ⟨-, rfl⟩ := Prod.mk.inj (Except.ok.inj h)
          omega
        · obtain ⟨-, rfl⟩ := Prod.mk.inj (Except.ok.inj h)
          omega
    · obtain ⟨-, rfl⟩ := Prod.mk.inj (Except.ok.inj h)
      omega

-- The text ends in the middle of an escape.
theorem scanChars_cut (start bound : Nat) (s more : PyStr) (hs : s ≠ []) (hlen : s.length < 7)
    (h : (s ++ more).take 2 = [cp '\\', cp 'u']) : ∃ e, scanChars start bound s = .error e ∧ e ≠ .recursion := by
  cases bound with
  | zero => exact ⟨_, rfl, by simp⟩
  | succ bound =>
      cases s with
      | nil => exact absurd rfl hs
      | cons c s =>
      cases s with
      | nil =>
          obtain rfl : c = cp '\\' := (List.cons.inj h).1
          exact ⟨_, rfl, by simp⟩
      | cons d rest =>
          obtain ⟨rfl, hd⟩ := List.cons.inj h
          obtain rfl : d = cp 'u' := (List.cons.inj hd).1
          have hshort : rest.length < 5 := by
            simp only [List.length_cons] at hlen
            omega
          have hescape : scanEscape start (cp 'u' :: rest) =
              .error (.unreadable "Invalid \\uXXXX escape" (rest.length + 1)) := by
            rw [scanEscape, if_pos rfl, scanUnicode, if_pos hshort]
          refine ⟨.unreadable "Invalid \\uXXXX escape" (rest.length + 1), ?_, by simp⟩
          rw [scanChars, if_neg (by decide), if_pos rfl, hescape]

-- An escape goes on, or the text ends in the middle of it.
theorem scanUnicode_append (s more : PyStr) :
    (∃ u rest, scanUnicode s = .ok (u, rest) ∧ rest <:+ s ∧ scanUnicode (s ++ more) = .ok (u, rest ++ more)) ∨
      ((∀ u rest, scanUnicode (s ++ more) = .ok (u, rest) → rest.length ≤ more.length) ∧
        ((∃ e, scanUnicode s = .error e ∧ e ≠ .recursion) ∨ ∃ u rest, scanUnicode s = .ok (u, rest) ∧
          ∀ start bound, ∃ e, scanChars start bound rest = .error e ∧ e ≠ .recursion)) := by
  by_cases hshort : s.length < 5
  · refine .inr ⟨fun u rest h => ?_, .inl ⟨.unreadable "Invalid \\uXXXX escape" (s.length + 1), ?_, by simp⟩⟩
    · have hlength := scanUnicode_length _ rest u h
      rw [List.length_append] at hlength
      omega
    · rw [scanUnicode, if_pos hshort]
  have hlong : ¬ (s ++ more).length < 5 := by
    rw [List.length_append]
    omega
  have hhex := scanHex4_append s more (by omega)
  cases hfirst : scanHex4 s with
  | none =>
      rw [hfirst] at hhex
      refine .inr ⟨fun u rest h => ?_, .inl ⟨.unreadable "Invalid \\uXXXX escape" (s.length + 1), ?_, by simp⟩⟩
      · rw [scanUnicode, if_neg hlong, hhex] at h
        cases h
      · rw [scanUnicode, if_neg hshort, hfirst]
  | some pair =>
      obtain ⟨u, t⟩ := pair
      rw [hfirst] at hhex
      have ht := scanHex4_length s t u hfirst
      have hsuffix := scanHex4_suffix s t u hfirst
      simp only [scanUnicode, if_neg hshort, if_neg hlong, hhex, hfirst, Option.map_some]
      by_cases hpair : 0xD800 ≤ u ∧ u < 0xDC00 ∧ 7 ≤ t.length ∧ t.take 2 = [cp '\\', cp 'u']
      · have hmore : 0xD800 ≤ u ∧ u < 0xDC00 ∧ 7 ≤ (t ++ more).length ∧ (t ++ more).take 2 = [cp '\\', cp 'u'] := by
          refine ⟨hpair.1, hpair.2.1, ?_, ?_⟩
          · rw [List.length_append]
            omega
          · rw [List.take_append_of_le_length (by omega), hpair.2.2.2]
        have hdrop : (t ++ more).drop 2 = t.drop 2 ++ more := List.drop_append_of_le_length (by omega)
        have hsecond := scanHex4_append (t.drop 2) more (by rw [List.length_drop]; omega)
        rw [if_pos hpair, if_pos hmore, hdrop, hsecond]
        cases hlow : scanHex4 (t.drop 2) with
        | none => exact .inr ⟨by simp, .inl ⟨_, rfl, by simp⟩⟩
        | some low =>
            obtain ⟨v, after⟩ := low
            have hafter := (scanHex4_suffix _ after v hlow).trans ((List.drop_suffix 2 t).trans hsuffix)
            simp only [Option.map_some]
            by_cases hrange : 0xDC00 ≤ v ∧ v < 0xE000
            · rw [if_pos hrange, if_pos hrange]
              exact .inl ⟨_, _, rfl, hafter, rfl⟩
            · rw [if_neg hrange, if_neg hrange]
              exact .inl ⟨_, _, rfl, hsuffix, rfl⟩
      rw [if_neg hpair]
      by_cases hmore : 0xD800 ≤ u ∧ u < 0xDC00 ∧ 7 ≤ (t ++ more).length ∧ (t ++ more).take 2 = [cp '\\', cp 'u']
      · rw [if_pos hmore]
        -- the other half starts in the text and ends in what has been added
        have htlen : t.length < 7 := by
          by_contra hge
          refine hpair ⟨hmore.1, hmore.2.1, by omega, ?_⟩
          rw [← hmore.2.2.2, List.take_append_of_le_length (by omega)]
        have htne : t ≠ [] := by
          rintro rfl
          simp only [List.length_nil] at ht
          omega
        have hcut := fun start bound => scanChars_cut start bound t more htne htlen hmore.2.2.2
        cases hlow : scanHex4 ((t ++ more).drop 2) with
        | none => exact .inr ⟨by simp, .inr ⟨_, _, rfl, hcut⟩⟩
        | some low =>
            obtain ⟨v, after⟩ := low
            have hafter := scanHex4_length _ after v hlow
            rw [List.length_drop, List.length_append] at hafter
            simp only
            by_cases hrange : 0xDC00 ≤ v ∧ v < 0xE000
            · rw [if_pos hrange]
              refine .inr ⟨fun w rest h => ?_, .inr ⟨_, _, rfl, hcut⟩⟩
              obtain ⟨-, rfl⟩ := Prod.mk.inj (Except.ok.inj h)
              omega
            · rw [if_neg hrange]
              exact .inl ⟨_, _, rfl, hsuffix, rfl⟩
      · rw [if_neg hmore]
        exact .inl ⟨_, _, rfl, hsuffix, rfl⟩

theorem scanChars_length (start bound : Nat) (s t rest : PyStr) (hbound : s.length < bound)
    (h : scanChars start bound s = .ok (t, rest)) : rest.length < s.length := by
  have hsound := scanChars_sound start bound s hbound
  rw [h] at hsound
  exact hsound.1

theorem scanChars_cons (start bound : Nat) (c : CodePoint) (rest : PyStr) :
    scanChars start (bound + 1) (c :: rest) =
      if c = cp '"' then .ok ([], rest)
      else if c = cp '\\' then
        andThen (scanEscape start rest) fun u rest => andThen (scanChars start bound rest) fun s rest =>
          .ok (u :: s, rest)
      else if c.val < 0x20 then .error (.unreadable "Invalid control character at" (rest.length + 1))
      else andThen (scanChars start bound rest) fun s rest => .ok (c :: s, rest) := by
  rw [scanChars]
  by_cases hslash : c = cp '\\'
  · rw [if_pos hslash, if_pos hslash]
    cases scanEscape start rest with
    | error e => rfl
    | ok pair =>
        simp only [andThen]
        cases scanChars start bound pair.2 with
        | error e => rfl
        | ok tail => rfl
  · rw [if_neg hslash, if_neg hslash]
    cases scanChars start bound rest with
    | error e => rfl
    | ok tail => rfl

-- The text after a backslash.
theorem escape_steady (start start' bound bound' : Nat) (s more : PyStr) (hbound' : (s ++ more).length < bound')
    (ih : ∀ rest, rest <:+ s → Steady more rest (scanChars start bound rest) (scanChars start' bound' (rest ++ more))) :
    Steady more s
      (andThen (scanEscape start s) fun u rest => andThen (scanChars start bound rest) fun t rest => .ok (u :: t, rest))
      (andThen (scanEscape start' (s ++ more)) fun u rest =>
        andThen (scanChars start' bound' rest) fun t rest => .ok (u :: t, rest)) := by
  have hstands : ∀ u rest, rest <:+ s →
      Steady more s (andThen (scanChars start bound rest) fun t rest => .ok (u :: t, rest))
        (andThen (scanChars start' bound' (rest ++ more)) fun t rest => .ok (u :: t, rest)) :=
    fun u rest hrest => ((ih rest hrest).suffix hrest).map (u :: ·)
  -- a string that goes on behind the text ends behind it
  have hbehind : ∀ u mid t rest, mid.length ≤ more.length →
      andThen (scanChars start' bound' mid) (fun t rest => .ok (u :: t, rest)) = .ok (t, rest) →
        rest.length < more.length := by
    intro u mid t rest hmid h
    obtain ⟨t', mid', hscan, hend⟩ := (andThen_eq_ok _ _ _ _).mp h
    obtain ⟨-, rfl⟩ := Prod.mk.inj (Except.ok.inj hend)
    have := scanChars_length start' bound' mid t' mid' (by rw [List.length_append] at hbound'; omega) hscan
    omega
  cases s with
  | nil =>
      refine steady_error _ _ _ _ (by simp) fun t rest h => ?_
      obtain ⟨u, mid, hescape, hrest⟩ := (andThen_eq_ok _ _ _ _).mp h
      have hsound := scanEscape_sound start' ([] ++ more)
      rw [hescape] at hsound
      exact hbehind u mid t rest (Nat.le_of_lt hsound.1) hrest
  | cons d s =>
      have hs : s <:+ d :: s := List.suffix_cons d s
      by_cases hu : d = cp 'u'
      · have hleft : scanEscape start (d :: s) = scanUnicode s := by rw [scanEscape, if_pos hu]
        have hright : scanEscape start' (d :: s ++ more) = scanUnicode (s ++ more) := by
          rw [List.cons_append, scanEscape, if_pos hu]
        rw [hleft, hright]
        rcases scanUnicode_append s more with ⟨u, rest, hscan, hrest, hscan'⟩ | ⟨hlength, hfails⟩
        · rw [hscan, hscan']
          exact hstands u rest (hrest.trans hs)
        · have hends : ∀ t rest, andThen (scanUnicode (s ++ more)) (fun u rest =>
              andThen (scanChars start' bound' rest) fun t rest => .ok (u :: t, rest)) = .ok (t, rest) →
                rest.length < more.length := by
            intro t rest h
            obtain ⟨u, mid, hscan, hrest⟩ := (andThen_eq_ok _ _ _ _).mp h
            exact hbehind u mid t rest (hlength u mid hscan) hrest
          rcases hfails with ⟨e, hscan, he⟩ | ⟨u, rest, hscan, hcut⟩
          · rw [hscan]
            exact steady_error _ _ _ _ he hends
          · obtain ⟨e, herror, he⟩ := hcut start bound
            rw [hscan]
            simp only [andThen, herror]
            exact steady_error _ _ _ _ he hends
      · rw [List.cons_append]
        simp only [scanEscape, if_neg hu]
        cases simpleEscape d with
        | none => exact steady_error _ _ _ _ (by simp) (by simp [andThen])
        | some u => exact hstands u s hs

theorem scanChars_steady (start start' bound bound' : Nat) (s more : PyStr) (hbound : s.length < bound)
    (hbound' : (s ++ more).length < bound') :
    Steady more s (scanChars start bound s) (scanChars start' bound' (s ++ more)) := by
  induction bound generalizing bound' s with
  | zero => omega
  | succ bound ih =>
      cases s with
      | nil =>
          refine steady_error _ _ _ _ nofun fun t rest h => ?_
          exact scanChars_length _ _ _ t rest hbound' h
      | cons c s =>
          obtain ⟨bound', rfl⟩ : ∃ b, bound' = b + 1 := Nat.exists_eq_succ_of_ne_zero (by omega)
          rw [List.cons_append, List.length_cons] at hbound'
          rw [List.length_cons] at hbound
          have hs : s <:+ c :: s := List.suffix_cons c s
          rw [List.cons_append, scanChars_cons, scanChars_cons]
          by_cases hquote : c = cp '"'
          · rw [if_pos hquote, if_pos hquote]
            exact steady_ok more _ _ s hs
          rw [if_neg hquote, if_neg hquote]
          by_cases hslash : c = cp '\\'
          · rw [if_pos hslash, if_pos hslash]
            refine (escape_steady start start' bound bound' s more (by omega) fun rest hrest => ?_).suffix hs
            have hlength := hrest.length_le
            refine ih bound' rest (by omega) ?_
            rw [List.length_append] at hbound' ⊢
            omega
          rw [if_neg hslash, if_neg hslash]
          by_cases hcontrol : c.val < 0x20
          · rw [if_pos hcontrol, if_pos hcontrol]
            exact steady_error _ _ _ _ nofun nofun
          rw [if_neg hcontrol, if_neg hcontrol]
          exact ((ih bound' s (by omega) (by omega)).suffix hs).map (c :: ·)

theorem scanString_steady (s more : PyStr) : Steady more s (scanString s) (scanString (s ++ more)) :=
  scanChars_steady _ _ _ _ s more (Nat.lt_succ_self _) (Nat.lt_succ_self _)

end Strings

section Lists

theorem skipWs_append (s more : PyStr) :
    skipWs (s ++ more) = if skipWs s = [] then skipWs more else skipWs s ++ more := by
  induction s with
  | nil => rfl
  | cons c s ih =>
      cases hc : isWs c with
      | true => simpa [skipWs, hc] using ih
      | false => simp [skipWs, hc]

theorem skipWs_suffix (s : PyStr) : skipWs s <:+ s := List.dropWhile_suffix _

-- What a list goes on with after an item.
def afterItem (item : PyStr → Scan α) (close : CodePoint) (bound : Nat) (a : α) (rest : PyStr) : Scan (List α) :=
  match skipWs rest with
  | [] => .error (.unreadable "Expecting ',' delimiter" 0)
  | c :: rest =>
      if c = close then .ok ([a], rest)
      else if c = cp ',' then
        andThen (parseList item close bound (skipWs rest)) fun as rest => .ok (a :: as, rest)
      else .error (.unreadable "Expecting ',' delimiter" (rest.length + 1))

theorem parseList_succ (item : PyStr → Scan α) (close : CodePoint) (bound : Nat) (s : PyStr) :
    parseList item close (bound + 1) s = andThen (item s) (afterItem item close bound) := by
  rw [parseList]
  cases item s with
  | error e => rfl
  | ok pair =>
      simp only [andThen, afterItem]
      cases skipWs pair.2 with
      | nil => rfl
      | cons c rest =>
          simp only
          cases parseList item close bound (skipWs rest) with
          | error e => rfl
          | ok tail => rfl

variable (item : PyStr → Scan α) (close : CodePoint)

theorem afterItem_close (bound : Nat) (a : α) (mid : PyStr) (as : List α) (rest : PyStr)
    (hlist : ∀ s as rest, parseList item close bound s = .ok (as, rest) → close :: rest <:+ s)
    (h : afterItem item close bound a mid = .ok (as, rest)) : close :: rest <:+ mid := by
  refine List.IsSuffix.trans ?_ (skipWs_suffix mid)
  unfold afterItem at h
  cases hmid : skipWs mid with
  | nil =>
      rw [hmid] at h
      cases h
  | cons c tail =>
      rw [hmid] at h
      dsimp only at h
      by_cases hend : c = close
      · rw [if_pos hend] at h
        obtain ⟨-, rfl⟩ := Prod.mk.inj (Except.ok.inj h)
        rw [hend]
      rw [if_neg hend] at h
      by_cases hcomma : c = cp ','
      · rw [if_pos hcomma] at h
        obtain ⟨as', rest', htail, hend'⟩ := (andThen_eq_ok _ _ _ _).mp h
        obtain ⟨-, rfl⟩ := Prod.mk.inj (Except.ok.inj hend')
        exact ((hlist _ _ _ htail).trans (skipWs_suffix tail)).trans (List.suffix_cons c tail)
      · rw [if_neg hcomma] at h
        cases h

variable (hsuffix : ∀ s a rest, item s = .ok (a, rest) → rest <:+ s)

include hsuffix

-- A list ends with its closing bracket.
theorem parseList_close (bound : Nat) (s : PyStr) (as : List α) (rest : PyStr)
    (h : parseList item close bound s = .ok (as, rest)) : close :: rest <:+ s := by
  induction bound generalizing s as rest with
  | zero => cases h
  | succ bound ih =>
      rw [parseList_succ] at h
      obtain ⟨a, mid, hitem, hafter⟩ := (andThen_eq_ok _ _ _ _).mp h
      exact (afterItem_close item close bound a mid as rest ih hafter).trans (hsuffix s a mid hitem)

theorem afterItem_shrinks (bound : Nat) (a : α) (mid : PyStr) (as : List α) (rest : PyStr)
    (h : afterItem item close bound a mid = .ok (as, rest)) : rest.length < mid.length :=
  (afterItem_close item close bound a mid as rest (parseList_close item close hsuffix bound) h).length_le

omit hsuffix

variable (more : PyStr) (hsteady : ∀ s, Steady more s (item s) (item (s ++ more)))
  (hshrinks : ∀ s a rest, item s = .ok (a, rest) → rest.length < s.length)
  (hempty : ∃ e, item [] = .error e ∧ e ≠ .recursion)

include hsteady hshrinks hempty

theorem steady_skipWs (s : PyStr) : Steady more s (item (skipWs s)) (item (skipWs (s ++ more))) := by
  rw [skipWs_append]
  by_cases hblank : skipWs s = []
  · obtain ⟨e, herror, he⟩ := hempty
    rw [if_pos hblank, hblank, herror]
    refine steady_error _ _ _ _ he fun a rest h => ?_
    have hlength := hshrinks _ a rest h
    have := (skipWs_suffix more).length_le
    omega
  · rw [if_neg hblank]
    exact (hsteady (skipWs s)).suffix (skipWs_suffix s)

include hsuffix

omit hshrinks in
theorem parseList_steady (bound bound' : Nat) (s : PyStr) (hbound : s.length < bound)
    (hbound' : (s ++ more).length < bound') :
    Steady more s (parseList item close bound s) (parseList item close bound' (s ++ more)) := by
  induction bound generalizing bound' s with
  | zero => omega
  | succ bound ih =>
      obtain ⟨bound', rfl⟩ : ∃ b, bound' = b + 1 := Nat.exists_eq_succ_of_ne_zero (by omega)
      rw [parseList_succ, parseList_succ]
      refine (hsteady s).andThen (fun a rest hrest => ?_) fun a rest as rest' h =>
        Nat.le_of_lt (afterItem_shrinks item close hsuffix bound' a rest as rest' h)
      have hlength := hrest.length_le
      by_cases hblank : skipWs rest = []
      · have hleft : afterItem item close bound a rest = .error (.unreadable "Expecting ',' delimiter" 0) := by
          rw [afterItem, hblank]
        have hright : afterItem item close bound' a (rest ++ more) = afterItem item close bound' a more := by
          rw [afterItem, afterItem, skipWs_append, if_pos hblank]
        rw [hleft, hright]
        refine steady_error _ _ _ _ nofun fun as rest' h => ?_
        exact afterItem_shrinks item close hsuffix bound' a more as rest' h
      obtain ⟨c, tail, hskip⟩ := List.exists_cons_of_ne_nil hblank
      have hmid : c :: tail <:+ rest := hskip ▸ skipWs_suffix rest
      have htail : tail <:+ s := ((List.suffix_cons c tail).trans hmid).trans hrest
      have hshorter := hmid.length_le
      rw [List.length_cons] at hshorter
      rw [afterItem, afterItem, skipWs_append, if_neg hblank, hskip, List.cons_append]
      dsimp only
      by_cases hend : c = close
      · rw [if_pos hend, if_pos hend]
        exact steady_ok more s [a] tail htail
      rw [if_neg hend, if_neg hend]
      by_cases hcomma : c = cp ','
      · rw [if_pos hcomma, if_pos hcomma, skipWs_append]
        refine Steady.map ?_ (a :: ·)
        by_cases hlast : skipWs tail = []
        · obtain ⟨bound, rfl⟩ : ∃ b, bound = b + 1 := Nat.exists_eq_succ_of_ne_zero (by omega)
          obtain ⟨e, herror, he⟩ := hempty
          rw [if_pos hlast, hlast, parseList_succ, herror]
          refine steady_error _ _ _ _ he fun as rest' h => ?_
          have hclosed := (parseList_close item close hsuffix bound' _ as rest' h).length_le
          have := (skipWs_suffix more).length_le
          rw [List.length_cons] at hclosed
          omega
        · rw [if_neg hlast]
          have hskipped := (skipWs_suffix tail).length_le
          refine (ih bound' (skipWs tail) (by omega) ?_).suffix ((skipWs_suffix tail).trans htail)
          rw [List.length_append] at hbound' ⊢
          omega
      · rw [if_neg hcomma, if_neg hcomma]
        exact steady_error _ _ _ _ nofun nofun

-- The rest of a container.
def bracket (mk : List α → Json) (s : PyStr) : Scan Json :=
  if (skipWs s).head? = some close then .ok (mk [], (skipWs s).tail)
  else andThen (parseList item close (s.length + 1) (skipWs s)) fun as rest => .ok (mk as, rest)

omit hsteady hshrinks hempty in
theorem bracket_close (mk : List α → Json) (s : PyStr) (j : Json) (rest : PyStr)
    (h : bracket item close mk s = .ok (j, rest)) : close :: rest <:+ s := by
  refine List.IsSuffix.trans ?_ (skipWs_suffix s)
  unfold bracket at h
  split at h
  · next hend =>
      obtain ⟨t, ht⟩ := List.head?_eq_some_iff.mp hend
      obtain ⟨-, rfl⟩ := Prod.mk.inj (Except.ok.inj h)
      rw [ht]
      exact List.suffix_rfl
  · obtain ⟨as, mid, hlist, hend⟩ := (andThen_eq_ok _ _ _ _).mp h
    obtain ⟨-, rfl⟩ := Prod.mk.inj (Except.ok.inj hend)
    exact parseList_close item close hsuffix _ _ as mid hlist

omit hshrinks in
theorem bracket_steady (mk : List α → Json) (s : PyStr) :
    Steady more s (bracket item close mk s) (bracket item close mk (s ++ more)) := by
  have hs := (skipWs_suffix s).length_le
  by_cases hblank : skipWs s = []
  · have hright : ∀ j rest, bracket item close mk (s ++ more) = .ok (j, rest) → rest.length < more.length := by
      intro j rest h
      have hmore := (skipWs_suffix more).length_le
      rw [bracket, skipWs_append, if_pos hblank] at h
      split at h
      · next hend =>
          obtain ⟨t, ht⟩ := List.head?_eq_some_iff.mp hend
          obtain ⟨-, rfl⟩ := Prod.mk.inj (Except.ok.inj h)
          rw [ht] at hmore ⊢
          exact hmore
      · obtain ⟨as, mid, hlist, hend⟩ := (andThen_eq_ok _ _ _ _).mp h
        obtain ⟨-, rfl⟩ := Prod.mk.inj (Except.ok.inj hend)
        have hclosed := (parseList_close item close hsuffix _ _ as mid hlist).length_le
        rw [List.length_cons] at hclosed
        omega
    obtain ⟨e, herror, he⟩ := hempty
    have hleft : bracket item close mk s = .error e := by
      rw [bracket, hblank, if_neg nofun, parseList_succ, herror]
      rfl
    rw [hleft]
    exact steady_error _ _ _ _ he hright
  rw [bracket, bracket, skipWs_append, if_neg hblank, List.head?_append_of_ne_nil _ hblank,
    List.tail_append_of_ne_nil hblank]
  split
  · exact steady_ok more s (mk []) _ ((List.tail_suffix _).trans (skipWs_suffix s))
  · refine Steady.map ?_ mk
    refine (parseList_steady item close hsuffix more hsteady hempty _ _ (skipWs s) (by omega) ?_).suffix
      (skipWs_suffix s)
    rw [List.length_append, List.length_append]
    omega

end Lists

section Values

theorem scanString_suffix (s t rest : PyStr) (h : scanString s = .ok (t, rest)) : rest <:+ s := by
  have hsteady := scanString_steady s []
  rw [h] at hsteady
  exact hsteady.1

variable (value : PyStr → Scan Json)

-- What a member goes on with after its key.
def afterKey (key rest : PyStr) : Scan (PyStr × Json) :=
  match skipWs rest with
  | [] => .error (.unreadable "Expecting ':' delimiter" 0)
  | c :: rest =>
      if c = cp ':' then andThen (value (skipWs rest)) fun j rest => .ok ((key, j), rest)
      else .error (.unreadable "Expecting ':' delimiter" (rest.length + 1))

theorem parseMember_cons (c : CodePoint) (rest : PyStr) :
    parseMember value (c :: rest) = if c = cp '"' then andThen (scanString rest) (afterKey value)
      else .error (.unreadable "Expecting property name enclosed in double quotes" (rest.length + 1)) := by
  rw [parseMember]
  cases scanString rest with
  | error e => rfl
  | ok pair =>
      simp only [andThen, afterKey]
      cases skipWs pair.2 with
      | nil => rfl
      | cons d tail =>
          simp only
          cases value (skipWs tail) with
          | error e => rfl
          | ok found => rfl

theorem parseArray_eq (s : PyStr) : parseArray value s = bracket value (cp ']') .arr s := by
  rw [parseArray, bracket]
  cases parseList value (cp ']') (s.length + 1) (skipWs s) with
  | error e => rfl
  | ok pair => rfl

theorem parseObject_eq (s : PyStr) :
    parseObject value s = bracket (parseMember value) (cp '}') (fun members => .obj (dictOf members)) s := by
  rw [parseObject, bracket]
  cases parseList (parseMember value) (cp '}') (s.length + 1) (skipWs s) with
  | error e => rfl
  | ok pair => rfl

-- A value that is no container and no string.
def parseAtom (s : PyStr) : Scan Json :=
  match parseLiteral s with
  | some found => .ok found
  | none => parseNumber s

def parseNested (nested : Option (PyStr → Scan Json)) (k : (PyStr → Scan Json) → Scan Json) : Scan Json :=
  match nested with
  | none => .error .recursion
  | some value => k value

theorem parseStep_cons (nested : Option (PyStr → Scan Json)) (c : CodePoint) (rest : PyStr) :
    parseStep nested (c :: rest) =
      if c = cp '"' then andThen (scanString rest) fun t rest => .ok (.str t, rest)
      else if c = cp '{' then parseNested nested fun value => parseObject value rest
      else if c = cp '[' then parseNested nested fun value => parseArray value rest
      else parseAtom (c :: rest) := by
  simp only [parseStep]
  by_cases hquote : c = cp '"'
  · rw [if_pos hquote, if_pos hquote]
    cases scanString rest with
    | error e => rfl
    | ok pair => rfl
  rw [if_neg hquote, if_neg hquote]
  by_cases hbrace : c = cp '{'
  · rw [if_pos hbrace, if_pos hbrace]
    cases nested with
    | none => rfl
    | some value => rfl
  rw [if_neg hbrace, if_neg hbrace]
  by_cases hbracket : c = cp '['
  · rw [if_pos hbracket, if_pos hbracket]
    cases nested with
    | none => rfl
    | some value => rfl
  rw [if_neg hbracket, if_neg hbracket]
  unfold parseAtom
  cases parseLiteral (c :: rest) with
  | none => rfl
  | some found => rfl

theorem parseMember_suffix (hsuffix : ∀ s j rest, value s = .ok (j, rest) → rest <:+ s) (s : PyStr)
    (member : PyStr × Json) (rest : PyStr) (h : parseMember value s = .ok (member, rest)) : rest <:+ s := by
  cases s with
  | nil => cases h
  | cons c s =>
      rw [parseMember_cons] at h
      split at h
      · obtain ⟨key, mid, hscan, hafter⟩ := (andThen_eq_ok _ _ _ _).mp h
        refine List.IsSuffix.trans ?_ ((scanString_suffix s key mid hscan).trans (List.suffix_cons c s))
        refine List.IsSuffix.trans ?_ (skipWs_suffix mid)
        unfold afterKey at hafter
        cases hmid : skipWs mid with
        | nil =>
            rw [hmid] at hafter
            cases hafter
        | cons d tail =>
            rw [hmid] at hafter
            dsimp only at hafter
            split at hafter
            · obtain ⟨j, mid', hvalue, hend⟩ := (andThen_eq_ok _ _ _ _).mp hafter
              obtain ⟨-, rfl⟩ := Prod.mk.inj (Except.ok.inj hend)
              exact ((hsuffix _ j mid' hvalue).trans (skipWs_suffix tail)).trans (List.suffix_cons d tail)
            · cases hafter
      · cases h

variable (more : PyStr) (hsteady : ∀ s, Steady more s (value s) (value (s ++ more)))
  (hshrinks : ∀ s j rest, value s = .ok (j, rest) → rest.length < s.length)
  (hempty : ∃ e, value [] = .error e ∧ e ≠ .recursion)

include hshrinks

omit hshrinks in
theorem afterKey_shrinks (hshrinks : ∀ s j rest, value s = .ok (j, rest) → rest.length < s.length)
    (key mid : PyStr) (member : PyStr × Json) (rest : PyStr)
    (h : afterKey value key mid = .ok (member, rest)) : rest.length < mid.length := by
  have hmidlen := (skipWs_suffix mid).length_le
  unfold afterKey at h
  cases hmid : skipWs mid with
  | nil =>
      rw [hmid] at h
      cases h
  | cons d tail =>
      rw [hmid] at h hmidlen
      rw [List.length_cons] at hmidlen
      dsimp only at h
      split at h
      · obtain ⟨j, mid', hvalue, hend⟩ := (andThen_eq_ok _ _ _ _).mp h
        obtain ⟨-, rfl⟩ := Prod.mk.inj (Except.ok.inj hend)
        have hlength := hshrinks _ j mid' hvalue
        have htail := (skipWs_suffix tail).length_le
        omega
      · cases h

include hsteady hempty

theorem parseMember_steady (s : PyStr) : Steady more s (parseMember value s) (parseMember value (s ++ more)) := by
  have hafter := afterKey_shrinks value hshrinks
  cases s with
  | nil =>
      refine steady_error _ _ _ _ nofun fun member rest h => ?_
      rw [List.nil_append] at h
      cases more with
      | nil => cases h
      | cons c tail =>
          rw [parseMember_cons] at h
          split at h
          · obtain ⟨key, mid, hscan, hkey⟩ := (andThen_eq_ok _ _ _ _).mp h
            have hmid := (scanString_suffix tail key mid hscan).length_le
            have hrest := hafter key mid member rest hkey
            rw [List.length_cons]
            omega
          · cases h
  | cons c s =>
      rw [List.cons_append, parseMember_cons, parseMember_cons]
      by_cases hquote : c = cp '"'
      · rw [if_pos hquote, if_pos hquote]
        refine Steady.suffix ?_ (List.suffix_cons c s)
        refine (scanString_steady s more).andThen (fun key rest hrest => ?_) fun key rest member rest' h =>
          Nat.le_of_lt (hafter key rest member rest' h)
        by_cases hblank : skipWs rest = []
        · have hleft : afterKey value key rest = .error (.unreadable "Expecting ':' delimiter" 0) := by
            rw [afterKey, hblank]
          have hright : afterKey value key (rest ++ more) = afterKey value key more := by
            rw [afterKey, afterKey, skipWs_append, if_pos hblank]
          rw [hleft, hright]
          exact steady_error _ _ _ _ nofun fun member rest' h => hafter key more member rest' h
        obtain ⟨d, tail, hskip⟩ := List.exists_cons_of_ne_nil hblank
        have hmid : d :: tail <:+ rest := hskip ▸ skipWs_suffix rest
        have htail : tail <:+ s := ((List.suffix_cons d tail).trans hmid).trans hrest
        rw [afterKey, afterKey, skipWs_append, if_neg hblank, hskip, List.cons_append]
        dsimp only
        by_cases hcolon : d = cp ':'
        · rw [if_pos hcolon, if_pos hcolon]
          have hvalue := steady_skipWs value more hsteady hshrinks hempty tail
          exact (hvalue.suffix htail).map (key, ·)
        · rw [if_neg hcolon, if_neg hcolon]
          exact steady_error _ _ _ _ nofun nofun
      · rw [if_neg hquote, if_neg hquote]
        exact steady_error _ _ _ _ nofun nofun

end Values

section Steps

variable (more : PyStr)

theorem parseLiteral_start (l : PyStr × Json) (hl : l ∈ literals) (r : PyStr) :
    parseLiteral (l.1 ++ r) = some (l.2, r) := by
  simp only [literals, List.mem_cons, List.not_mem_nil, or_false] at hl
  rcases hl with rfl | rfl | rfl | rfl | rfl | rfl <;> rfl

theorem parseLiteral_eq_some (s rest : PyStr) (j : Json) (h : parseLiteral s = some (j, rest)) :
    ∃ l ∈ literals, s = l.1 ++ rest ∧ j = l.2 := by
  obtain ⟨l, hl, hfound⟩ := List.exists_of_findSome?_eq_some h
  split at hfound
  · next htake =>
      obtain ⟨rfl, rfl⟩ := Prod.mk.inj (Option.some.inj hfound)
      refine ⟨l, hl, ?_, rfl⟩
      have hsplit := List.take_append_drop l.1.length s
      rw [htake] at hsplit
      exact hsplit.symm
  · cases hfound

-- A literal that is only there with more text ends in it.
theorem parseLiteral_behind (s rest : PyStr) (j : Json) (hnone : parseLiteral s = none)
    (h : parseLiteral (s ++ more) = some (j, rest)) : rest.length < more.length := by
  obtain ⟨l, hl, hsplit, rfl⟩ := parseLiteral_eq_some _ rest j h
  by_contra hge
  have hlength := congrArg List.length hsplit
  rw [List.length_append, List.length_append] at hlength
  have hprefix : l.1 <+: s := List.prefix_of_prefix_length_le (hsplit ▸ List.prefix_append l.1 rest)
    (List.prefix_append s more) (by omega)
  obtain ⟨tail, rfl⟩ := hprefix
  rw [parseLiteral_start l hl tail] at hnone
  cases hnone

variable (hmore : Breaks more)

include hmore

theorem parseNumber_steady (s : PyStr) (hs : s ≠ []) : Steady more s (parseNumber s) (parseNumber (s ++ more)) := by
  unfold parseNumber
  rw [scanNumber_break more hmore s hs]
  cases hscan : scanNumber s with
  | none => exact steady_error _ _ _ _ nofun nofun
  | some pair =>
      obtain ⟨n, rest⟩ := pair
      obtain ⟨number, hsplit, -, -⟩ := scanNumber_chars s rest n hscan
      have hsuffix : rest <:+ s := ⟨number, hsplit.symm⟩
      simp only [Option.map_some]
      split
      · split
        · exact steady_ok more s _ rest hsuffix
        · exact steady_error _ _ _ _ nofun nofun
      · exact steady_ok more s _ rest hsuffix

theorem parseAtom_steady (s : PyStr) (hs : s ≠ []) : Steady more s (parseAtom s) (parseAtom (s ++ more)) := by
  have hnumber := parseNumber_steady more hmore s hs
  cases hliteral : parseLiteral s with
  | some found =>
      obtain ⟨l, hl, rfl, hj⟩ := parseLiteral_eq_some s found.2 found.1 hliteral
      rw [parseAtom, hliteral, parseAtom, List.append_assoc, parseLiteral_start l hl, ← hj]
      exact steady_ok more _ found.1 found.2 ⟨l.1, rfl⟩
  | none =>
      rw [parseAtom, hliteral]
      cases hbehind : parseLiteral (s ++ more) with
      | none =>
          rw [parseAtom, hbehind]
          exact hnumber
      | some found =>
          -- the text starts like the literal, and no number does
          have hscan : scanNumber s = none := by
            by_contra hsome
            obtain ⟨pair, hpair⟩ := Option.ne_none_iff_exists'.mp hsome
            have hwhole := scanNumber_break more hmore s hs
            rw [hpair] at hwhole
            rw [parseLiteral_number _ _ _ hwhole] at hbehind
            cases hbehind
          rw [parseAtom, hbehind, parseNumber, hscan]
          refine steady_error _ _ _ _ (by simp) fun j rest h => ?_
          obtain rfl := Except.ok.inj h
          exact parseLiteral_behind more s rest j hliteral hbehind

omit hmore

-- What a value makes of the text after an opening bracket.
theorem parseNested_steady (nested : Option (PyStr → Scan Json)) (s : PyStr)
    (k : (PyStr → Scan Json) → PyStr → Scan Json)
    (hk : ∀ value, nested = some value → Steady more s (k value s) (k value (s ++ more))) :
    Steady more s (parseNested nested fun value => k value s)
      (parseNested nested fun value => k value (s ++ more)) := by
  cases nested with
  | none => exact rfl
  | some value => exact hk value rfl

theorem Steady.rest {more s : PyStr} {a : α} {rest : PyStr} {r' : Scan α} (h : Steady more s (.ok (a, rest)) r') :
    rest <:+ s := h.1

-- The text of an object is steady, and so is the text of an array.
theorem parseObject_steady (value : PyStr → Scan Json)
    (hsteady : ∀ s, Steady more s (value s) (value (s ++ more)))
    (hshrinks : ∀ s j rest, value s = .ok (j, rest) → rest.length < s.length)
    (hempty : ∃ e, value [] = .error e ∧ e ≠ .recursion) (s : PyStr) :
    Steady more s (parseObject value s) (parseObject value (s ++ more)) := by
  have hsuffix : ∀ s j rest, value s = .ok (j, rest) → rest <:+ s := by
    intro s j rest h
    have hs := hsteady s
    rw [h] at hs
    exact hs.rest
  rw [parseObject_eq, parseObject_eq]
  exact bracket_steady (parseMember value) (cp '}') (parseMember_suffix value hsuffix) more
    (parseMember_steady value more hsteady hshrinks hempty) ⟨_, rfl, nofun⟩ _ s

theorem parseArray_steady (value : PyStr → Scan Json)
    (hsteady : ∀ s, Steady more s (value s) (value (s ++ more)))
    (hempty : ∃ e, value [] = .error e ∧ e ≠ .recursion) (s : PyStr) :
    Steady more s (parseArray value s) (parseArray value (s ++ more)) := by
  have hsuffix : ∀ s j rest, value s = .ok (j, rest) → rest <:+ s := by
    intro s j rest h
    have hs := hsteady s
    rw [h] at hs
    exact hs.rest
  rw [parseArray_eq, parseArray_eq]
  exact bracket_steady value (cp ']') hsuffix more hsteady hempty _ s

theorem parseStep_steady (hmore : Breaks more) (nested : Option (PyStr → Scan Json))
    (hsteady : ∀ value, nested = some value → ∀ s, Steady more s (value s) (value (s ++ more)))
    (hshrinks : ∀ value, nested = some value → ∀ s j rest, value s = .ok (j, rest) → rest.length < s.length)
    (hempty : ∀ value, nested = some value → ∃ e, value [] = .error e ∧ e ≠ .recursion)
    (hend : ∀ s j rest, parseStep nested s = .ok (j, rest) → rest.length < s.length) (s : PyStr) :
    Steady more s (parseStep nested s) (parseStep nested (s ++ more)) := by
  cases s with
  | nil => exact steady_error _ _ _ _ nofun fun j rest h => hend more j rest h
  | cons c s =>
      have hs : s <:+ c :: s := List.suffix_cons c s
      rw [List.cons_append, parseStep_cons, parseStep_cons]
      by_cases hquote : c = cp '"'
      · rw [if_pos hquote, if_pos hquote]
        exact ((scanString_steady s more).suffix hs).map Json.str
      rw [if_neg hquote, if_neg hquote]
      by_cases hbrace : c = cp '{'
      · rw [if_pos hbrace, if_pos hbrace]
        refine Steady.suffix ?_ hs
        refine parseNested_steady more nested s parseObject fun value hvalue => ?_
        exact parseObject_steady more value (hsteady value hvalue) (hshrinks value hvalue) (hempty value hvalue) s
      rw [if_neg hbrace, if_neg hbrace]
      by_cases hbracket : c = cp '['
      · rw [if_pos hbracket, if_pos hbracket]
        refine Steady.suffix ?_ hs
        refine parseNested_steady more nested s parseArray fun value hvalue => ?_
        exact parseArray_steady more value (hsteady value hvalue) (hempty value hvalue) s
      rw [if_neg hbracket, if_neg hbracket]
      exact parseAtom_steady more hmore (c :: s) (List.cons_ne_nil c s)

theorem parseValue_shrinks (limit : Nat) (s : PyStr) (j : Json) (rest : PyStr)
    (h : parseValue limit s = .ok (j, rest)) : rest.length < s.length := by
  have hsound := parseValue_sound limit s
  rw [h] at hsound
  exact hsound.1

theorem parseValue_nil (limit : Nat) : ∃ e, parseValue limit [] = .error e ∧ e ≠ .recursion := by
  obtain ⟨nested, hnested⟩ := parseValue_eq limit
  rw [hnested]
  exact ⟨.unreadable "Expecting value" 0, rfl, nofun⟩

-- A value is read whatever follows its text, but for the rest of a number.
theorem parseValue_steady (hmore : Breaks more) (limit : Nat) (s : PyStr) :
    Steady more s (parseValue limit s) (parseValue limit (s ++ more)) := by
  induction limit generalizing s with
  | zero => exact parseStep_steady more hmore none nofun nofun nofun (parseValue_shrinks 0) s
  | succ limit ih =>
      refine parseStep_steady more hmore (some (parseValue limit)) ?_ ?_ ?_ (parseValue_shrinks (limit + 1)) s
      · intro value hvalue
        obtain rfl := Option.some.inj hvalue
        exact ih
      · intro value hvalue
        obtain rfl := Option.some.inj hvalue
        exact parseValue_shrinks limit
      · intro value hvalue
        obtain rfl := Option.some.inj hvalue
        exact parseValue_nil limit

end Steps

end V91Core.Json
