import V91Core.Json.RoundTrip

namespace V91Core.Json

open V91Core.Python

def isHigh (c : CodePoint) : Bool := 0xD800 ≤ c.val && c.val < 0xDC00

def isLow (c : CodePoint) : Bool := 0xDC00 ≤ c.val && c.val < 0xE000

-- What a reader makes of escaped text: a high surrogate takes a low one that follows it.
def joinPairs : PyStr → PyStr
  | [] => []
  | [c] => [c]
  | c :: d :: rest =>
      if isHigh c && isLow d then chr (0x10000 + (c.val - 0xD800) * 1024 + (d.val - 0xDC00)) :: joinPairs rest
      else c :: joinPairs (d :: rest)

-- No high surrogate stands before a low one.
def NoPair (s : PyStr) : Prop := s.IsChain fun c d => ¬(isHigh c = true ∧ isLow d = true)

theorem joinPairs_length_le (s : PyStr) : (joinPairs s).length ≤ s.length := by
  fun_induction joinPairs s with
  | case1 => exact Nat.le_refl _
  | case2 c => exact Nat.le_refl _
  | case3 c d rest hpair ih =>
      simp only [List.length_cons]
      omega
  | case4 c d rest hpair ih =>
      simp only [List.length_cons] at ih ⊢
      omega

-- Joining a pair makes the text shorter.
theorem joinPairs_eq_iff (s : PyStr) : joinPairs s = s ↔ NoPair s := by
  unfold NoPair
  fun_induction joinPairs s with
  | case1 => simp
  | case2 c => simp
  | case3 c d rest hpair ih =>
      rw [Bool.and_eq_true] at hpair
      refine iff_of_false ?_ ?_
      · intro h
        have hlength := congrArg List.length h
        have hle := joinPairs_length_le rest
        simp only [List.length_cons] at hlength
        omega
      · intro h
        exact (List.isChain_cons_cons.mp h).1 hpair
  | case4 c d rest hpair ih =>
      rw [Bool.and_eq_true] at hpair
      rw [List.cons.injEq, List.isChain_cons_cons, ih]
      simp [hpair]

theorem noPair_of_escapable (s : PyStr) (h : ∀ c ∈ s, c.isSurrogate = false) : NoPair s := by
  induction s with
  | nil => exact .nil
  | cons c s ih =>
      obtain ⟨hc, hs⟩ := List.forall_mem_cons.mp h
      cases s with
      | nil => exact .singleton _
      | cons d s =>
          refine List.isChain_cons_cons.mpr ⟨?_, ih hs⟩
          rintro ⟨hhigh, -⟩
          simp only [isHigh, Bool.and_eq_true, decide_eq_true_eq] at hhigh
          rw [isSurrogate_eq_false] at hc
          omega

section Scanning

-- The text does not go on with an escaped low surrogate.
def NotLow (rest : PyStr) : Prop :=
  rest.take 2 = [cp '\\', cp 'u'] →
    ∃ v after, scanHex4 (rest.drop 2) = some (v, after) ∧ ¬(0xDC00 ≤ v ∧ v < 0xE000)

theorem notLow_hex4 (n : Nat) (tail : PyStr) (hn : n < 0x10000) (h : ¬(0xDC00 ≤ n ∧ n < 0xE000)) :
    NotLow (hex4 n ++ tail) := fun _ => ⟨n, tail, scanHex4_hex4 n hn tail, h⟩

theorem notLow_of_ne (c : CodePoint) (tail : PyStr) (h : c ≠ cp '\\') : NotLow (c :: tail) := by
  intro htake
  cases tail with
  | nil => cases htake
  | cons d tail => exact absurd (List.cons.inj htake).1 h

theorem notLow_escapeChar (d : CodePoint) (tail : PyStr) (h : isLow d = false) :
    NotLow (escapeChar true d ++ tail) := by
  simp only [isLow, Bool.and_eq_false_iff, decide_eq_false_iff_not] at h
  have hplain : NotLow (escapeChar false d ++ tail) := by
    rcases escapeChar_cases d with ⟨he, -, hslash, -⟩ | ⟨he, hlt⟩ | ⟨e, he, hu, -⟩
    · rw [he]
      exact notLow_of_ne d tail hslash
    · rw [he]
      exact notLow_hex4 _ tail (by omega) (by omega)
    · rw [he]
      intro htake
      exact absurd (List.cons.inj (List.cons.inj htake).2).1 hu
  rcases escapeChar_ascii d with he | ⟨hplane, he⟩ | ⟨hplane, he⟩
  · rwa [he]
  · rw [he]
    exact notLow_hex4 _ tail hplane (by omega)
  · have hbound : d.val < 0x110000 := d.isLt
    rw [he, List.append_assoc]
    exact notLow_hex4 _ _ (by omega) (by omega)

theorem scanUnicode_alone (c : CodePoint) (rest : PyStr) (hplane : c.val < 0x10000) (hne : rest ≠ [])
    (h : isHigh c = true → NotLow rest) : scanUnicode ((hex4 c.val).drop 2 ++ rest) = .ok (c, rest) := by
  have hlength : ¬((hex4 c.val).drop 2 ++ rest).length < 5 := by
    have hpos := List.length_pos_of_ne_nil hne
    simp only [hex4, List.drop_succ_cons, List.drop_zero, List.length_append, List.length_cons, List.length_nil]
    omega
  rw [scanUnicode, if_neg hlength, scanHex4_hex4 c.val hplane]
  dsimp only
  split
  · next hpair =>
      obtain ⟨hlo, hhi, -, htake⟩ := hpair
      obtain ⟨v, after, hscan, hv⟩ := h (by simp [isHigh, hlo, hhi]) htake
      rw [hscan]
      dsimp only
      rw [if_neg hv, chr_val]
  · rw [chr_val]

theorem scanUnicode_joined (c d : CodePoint) (rest : PyStr) (hc : isHigh c = true) (hd : isLow d = true)
    (hne : rest ≠ []) : scanUnicode ((hex4 c.val).drop 2 ++ (hex4 d.val ++ rest)) =
      .ok (chr (0x10000 + (c.val - 0xD800) * 1024 + (d.val - 0xDC00)), rest) := by
  simp only [isHigh, isLow, Bool.and_eq_true, decide_eq_true_eq] at hc hd
  have hpos := List.length_pos_of_ne_nil hne
  have hfirst : ¬((hex4 c.val).drop 2 ++ (hex4 d.val ++ rest)).length < 5 := by
    simp only [hex4, List.drop_succ_cons, List.drop_zero, List.length_append, List.length_cons, List.length_nil]
    omega
  have hsecond : 7 ≤ (hex4 d.val ++ rest).length := by
    simp only [hex4, List.length_append, List.length_cons, List.length_nil]
    omega
  have hdrop : (hex4 d.val ++ rest).drop 2 = (hex4 d.val).drop 2 ++ rest := rfl
  rw [scanUnicode, if_neg hfirst, scanHex4_hex4 c.val (by omega)]
  dsimp only
  rw [if_pos ⟨hc.1, hc.2, hsecond, rfl⟩, hdrop, scanHex4_hex4 d.val (by omega)]
  dsimp only
  rw [if_pos hd]

-- One escaped character and what was read of it.
theorem scanChars_hex4 (start bound n : Nat) (tail rest : PyStr) (c : CodePoint)
    (h : scanUnicode ((hex4 n).drop 2 ++ tail) = .ok (c, rest)) :
    scanChars start (bound + 1) (hex4 n ++ tail) =
      match scanChars start bound rest with
      | .error e => .error e
      | .ok (s, after) => .ok (c :: s, after) := by
  have hdrop : hex4 n = cp '\\' :: cp 'u' :: (hex4 n).drop 2 := rfl
  cases hrest : scanChars start bound rest <;>
    rw [hdrop, List.cons_append, List.cons_append, scanChars, if_neg (by decide), if_pos rfl, scanEscape,
      if_pos rfl, h] <;>
    simp only [hrest]

theorem escapeChar_surrogate (c : CodePoint) (h : c.isSurrogate = true) : escapeChar true c = hex4 c.val := by
  simp only [CodePoint.isSurrogate, Bool.and_eq_true, decide_eq_true_eq] at h
  have hshort : shortEscapes.find? (·.1 = c) = none := by
    rw [List.find?_eq_none]
    intro p hp hpc
    have hall : (shortEscapes.all fun p => p.1.val < 0x80) = true := by decide
    have hlt := List.all_eq_true.mp hall p hp
    rw [decide_eq_true_eq] at hpc hlt
    rw [hpc] at hlt
    omega
  rw [escapeChar, hshort]
  dsimp only
  rw [if_neg (by omega), if_pos ⟨rfl, by omega⟩, if_pos (by omega)]

theorem scanChars_joinPairs (start bound : Nat) (s r : PyStr) (h : s.length < bound) :
    scanChars start bound (s.flatMap (escapeChar true) ++ cp '"' :: r) = .ok (joinPairs s, r) := by
  -- a character that no low surrogate follows
  have hstep : ∀ (c : CodePoint) (rest : PyStr) (bound : Nat), rest ≠ [] → (isHigh c = true → NotLow rest) →
      scanChars start (bound + 1) (escapeChar true c ++ rest) =
        match scanChars start bound rest with
        | .error e => .error e
        | .ok (s, after) => .ok (c :: s, after) := by
    intro c rest bound hne hlow
    by_cases hc : c.isSurrogate = true
    · have hplane : c.val < 0x10000 := by
        simp only [CodePoint.isSurrogate, Bool.and_eq_true, decide_eq_true_eq] at hc
        omega
      rw [escapeChar_surrogate c hc]
      exact scanChars_hex4 _ _ _ _ _ _ (scanUnicode_alone c rest hplane hne hlow)
    · exact scanChars_escapeChar true _ _ c (fun _ => Bool.eq_false_iff.mpr hc) rest hne
  fun_induction joinPairs s generalizing bound with
  | case1 =>
      obtain ⟨bound, rfl⟩ := Nat.exists_eq_succ_of_ne_zero (show bound ≠ 0 by omega)
      rfl
  | case2 c =>
      rw [List.length_singleton] at h
      obtain ⟨bound, rfl⟩ := Nat.exists_eq_add_of_le' (show 2 ≤ bound by omega)
      rw [List.flatMap_singleton, hstep c _ _ (by simp) fun _ => notLow_of_ne _ _ (by decide)]
      rfl
  | case3 c d rest hpair ih =>
      rw [Bool.and_eq_true] at hpair
      obtain ⟨hc, hd⟩ := hpair
      have hcs : c.isSurrogate = true := by
        simp only [isHigh, Bool.and_eq_true, decide_eq_true_eq] at hc
        simp only [CodePoint.isSurrogate, Bool.and_eq_true, decide_eq_true_eq]
        omega
      have hds : d.isSurrogate = true := by
        simp only [isLow, Bool.and_eq_true, decide_eq_true_eq] at hd
        simp only [CodePoint.isSurrogate, Bool.and_eq_true, decide_eq_true_eq]
        omega
      simp only [List.length_cons] at h
      obtain ⟨bound, rfl⟩ := Nat.exists_eq_succ_of_ne_zero (show bound ≠ 0 by omega)
      rw [List.flatMap_cons, List.flatMap_cons, escapeChar_surrogate c hcs, escapeChar_surrogate d hds,
        List.append_assoc, List.append_assoc,
        scanChars_hex4 _ _ _ _ _ _ (scanUnicode_joined c d _ hc hd (by simp)), ih bound (by omega)]
  | case4 c d rest hpair ih =>
      simp only [List.length_cons] at h
      obtain ⟨bound, rfl⟩ := Nat.exists_eq_succ_of_ne_zero (show bound ≠ 0 by omega)
      have hnext : isHigh c = true → NotLow ((d :: rest).flatMap (escapeChar true) ++ cp '"' :: r) := by
        intro hc
        have hd : isLow d = false := by simpa [hc] using hpair
        rw [List.flatMap_cons, List.append_assoc]
        exact notLow_escapeChar d _ hd
      rw [List.flatMap_cons, List.append_assoc, hstep c _ _ (by simp) hnext, ih bound (by rw [List.length_cons]; omega)]

theorem scanString_joinPairs (s r : PyStr) :
    ∃ text, encodeString true s ++ r = cp '"' :: text ∧ scanString text = .ok (joinPairs s, r) := by
  refine ⟨s.flatMap (escapeChar true) ++ cp '"' :: r, by simp [encodeString], ?_⟩
  have h := length_le_flatMap true s
  exact scanChars_joinPairs _ _ s r (by rw [List.length_append]; omega)

-- The escaped text of any string reads as the string with its pairs joined.
theorem joinPairs_readsAs (limit : Nat) (s : PyStr) :
    ReadsAs (parseValue limit) (encodeString true s) (.str (joinPairs s)) := by
  obtain ⟨nested, hnested⟩ := parseValue_eq limit
  refine ⟨⟨_, _, rfl, by decide, by decide, by decide, by decide⟩, fun r _ => ?_⟩
  obtain ⟨text, htext, hscan⟩ := scanString_joinPairs s r
  simp only [htext, hnested, parseStep, if_true, hscan]

-- The text of an object reads as the object of what the texts of its values read as.
theorem obj_readsAs (st : Style) (hst : st.sortKeys = false) (limit : Nat) (fields : List (PyStr × Json))
    (reread : Json → Json) (hn : (fields.map Prod.fst).Nodup)
    (hkeys : ∀ f ∈ fields, ∀ c ∈ f.1, Escapable st.ensureAscii c)
    (hvalues : ∀ f ∈ fields, ∀ text, encode st limit f.2 = .ok text → ReadsAs (parseValue limit) text (reread f.2))
    (text : PyStr) (h : encode st (limit + 1) (.obj fields) = .ok text) :
    ReadsAs (parseValue (limit + 1)) text (.obj (fields.map fun f => (f.1, reread f.2))) := by
  rw [encode, encodeFields_eq, hst] at h
  obtain ⟨texts, htexts, rfl⟩ := map_eq_ok _ _ _ h
  simp only [Bool.false_eq_true, if_false, List.map_map] at htexts
  have hall := forall₂_of_sequence (ReadsAs (parseMember (parseValue limit))) _
    (fun f : PyStr × Json => (f.1, reread f.2)) fields texts htexts ?_
  · refine ⟨⟨_, _, rfl, by decide, by decide, by decide, by decide⟩, fun r _ => ?_⟩
    rw [List.cons_append, List.append_assoc]
    refine parseObject_joinWith st (parseValue limit) texts _ hall ?_ r
    rw [List.map_map]
    exact hn
  · intro f hf t ht
    obtain ⟨v, hv, rfl⟩ := map_eq_ok _ _ _ ht
    exact member_readsAs st _ f.1 v _ (hkeys f hf) (hvalues f hf v hv)

end Scanning

end V91Core.Json
