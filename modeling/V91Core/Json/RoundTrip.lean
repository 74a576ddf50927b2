import V91Core.Json.Decode
import Mathlib.Tactic.IntervalCases

namespace V91Core.Json

open V91Core.Python

section Strings

theorem hexValue_hexChar (n : Nat) (h : n < 16) : hexValue (hexChar n) = some n := by
  have hall : ∀ n : Fin 16, hexValue (hexChar n.val) = some n.val := by decide
  exact hall ⟨n, h⟩

theorem scanHex4_hex4 (n : Nat) (h : n < 0x10000) (rest : PyStr) :
    scanHex4 ((hex4 n).drop 2 ++ rest) = some (n, rest) := by
  simp only [hex4, List.drop_succ_cons, List.drop_zero, List.cons_append, List.nil_append, scanHex4,
    hexValue_hexChar _ (Nat.mod_lt _ (show 0 < 16 by decide))]
  congr 2
  omega

-- Every escape but `\u` stands for one character after the backslash.
theorem escapeChar_cases (c : CodePoint) :
    (escapeChar false c = [c] ∧ c ≠ cp '"' ∧ c ≠ cp '\\' ∧ 0x20 ≤ c.val) ∨
      (escapeChar false c = hex4 c.val ∧ c.val < 0x20) ∨
      ∃ d, escapeChar false c = [cp '\\', d] ∧ d ≠ cp 'u' ∧ simpleEscape d = some c := by
  have hshort : ∀ p ∈ shortEscapes, p.2 ≠ cp 'u' ∧ simpleEscape p.2 = some p.1 := by
    have hall : (shortEscapes.all fun p => p.2 ≠ cp 'u' ∧ simpleEscape p.2 = some p.1) = true := by decide
    simpa only [List.all_eq_true, decide_eq_true_eq] using hall
  unfold escapeChar
  cases hf : shortEscapes.find? (·.1 = c) with
  | some p =>
      obtain rfl : p.1 = c := by simpa using List.find?_some hf
      exact .inr (.inr ⟨p.2, rfl, hshort p (List.mem_of_find?_eq_some hf)⟩)
  | none =>
      have hnone := List.find?_eq_none.mp hf
      have hquote : c ≠ cp '"' := fun h => hnone (cp '"', cp '"') (by decide) (by simp [h])
      have hslash : c ≠ cp '\\' := fun h => hnone (cp '\\', cp '\\') (by decide) (by simp [h])
      simp only
      split
      · exact .inr (.inl ⟨rfl, ‹_›⟩)
      · exact .inl ⟨if_neg (by simp), hquote, hslash, by omega⟩

-- The characters that are read back from their escape: with `ensure_ascii` a lone
-- surrogate may become half of a pair.
def Escapable (ascii : Bool) (c : CodePoint) : Prop := ascii = true → c.isSurrogate = false

-- `ensure_ascii` escapes what is not ASCII, too.
theorem escapeChar_ascii (c : CodePoint) :
    escapeChar true c = escapeChar false c ∨ (c.val < 0x10000 ∧ escapeChar true c = hex4 c.val) ∨
      (0x10000 ≤ c.val ∧ escapeChar true c =
        hex4 (0xD800 + (c.val - 0x10000) / 1024) ++ hex4 (0xDC00 + (c.val - 0x10000) % 1024)) := by
  unfold escapeChar
  cases shortEscapes.find? (·.1 = c) with
  | some p => exact .inl rfl
  | none =>
      simp only
      by_cases hcontrol : c.val < 0x20
      · rw [if_pos hcontrol, if_pos hcontrol]
        exact .inl rfl
      · rw [if_neg hcontrol, if_neg hcontrol, if_neg (by simp : ¬ (false = true ∧ 0x7F ≤ c.val))]
        by_cases hascii : 0x7F ≤ c.val
        · rw [if_pos ⟨trivial, hascii⟩]
          by_cases hplane : c.val < 0x10000
          · exact .inr (.inl ⟨hplane, if_pos hplane⟩)
          · exact .inr (.inr ⟨by omega, if_neg hplane⟩)
        · exact .inl (if_neg (by simp [hascii]))

theorem chr_val (c : CodePoint) : chr c.val = c := Fin.ext (Nat.mod_eq_of_lt c.isLt)

theorem isSurrogate_eq_false (c : CodePoint) : c.isSurrogate = false ↔ c.val < 0xD800 ∨ 0xE000 ≤ c.val := by
  simp only [CodePoint.isSurrogate, Bool.and_eq_false_iff, decide_eq_false_iff_not]
  omega

theorem scanUnicode_hex4 (c : CodePoint) (h : c.val < 0x10000) (hc : c.isSurrogate = false) (rest : PyStr)
    (hrest : rest ≠ []) : scanUnicode ((hex4 c.val).drop 2 ++ rest) = .ok (c, rest) := by
  have hlen := List.length_pos_of_ne_nil hrest
  have hlength : ((hex4 c.val).drop 2 ++ rest).length = 4 + rest.length := by
    simp [hex4]
    omega
  rw [isSurrogate_eq_false] at hc
  rw [scanUnicode, if_neg (by omega), scanHex4_hex4 c.val h rest]
  simp only
  rw [if_neg (by omega), chr_val]

theorem scanUnicode_pair (c : CodePoint) (h : 0x10000 ≤ c.val) (rest : PyStr) (hrest : rest ≠ []) :
    scanUnicode ((hex4 (0xD800 + (c.val - 0x10000) / 1024)).drop 2 ++
      (hex4 (0xDC00 + (c.val - 0x10000) % 1024) ++ rest)) = .ok (c, rest) := by
  have hlen := List.length_pos_of_ne_nil hrest
  have hbound : c.val < 0x110000 := c.isLt
  obtain ⟨high, hhigh⟩ : ∃ n, n = 0xD800 + (c.val - 0x10000) / 1024 := ⟨_, rfl⟩
  obtain ⟨low, hlow⟩ : ∃ n, n = 0xDC00 + (c.val - 0x10000) % 1024 := ⟨_, rfl⟩
  have hhex : ∀ n, (hex4 n).length = 6 := fun _ => rfl
  have hvalue : 0x10000 + (high - 0xD800) * 1024 + (low - 0xDC00) = c.val := by omega
  have hdrop : (hex4 low ++ rest).drop 2 = (hex4 low).drop 2 ++ rest := rfl
  rw [← hhigh, ← hlow, scanUnicode, if_neg (by simp only [List.length_append, List.length_drop, hhex]; omega),
    scanHex4_hex4 high (by omega)]
  simp only
  rw [if_pos ⟨by omega, by omega, by simp only [List.length_append, hhex]; omega, rfl⟩, hdrop,
    scanHex4_hex4 low (by omega)]
  simp only
  rw [if_pos (by omega), hvalue, chr_val]

theorem scanChars_escapeChar (ascii : Bool) (start bound : Nat) (c : CodePoint) (hc : Escapable ascii c)
    (rest : PyStr) (hrest : rest ≠ []) :
    scanChars start (bound + 1) (escapeChar ascii c ++ rest) =
      match scanChars start bound rest with
      | .error e => .error e
      | .ok (s, after) => .ok (c :: s, after) := by
  have hunicode : ∀ n tail, scanUnicode ((hex4 n).drop 2 ++ tail) = .ok (c, rest) →
      scanChars start (bound + 1) (hex4 n ++ tail) =
        match scanChars start bound rest with
        | .error e => .error e
        | .ok (s, after) => .ok (c :: s, after) := by
    intro n tail hscan
    have hdrop : hex4 n = cp '\\' :: cp 'u' :: (hex4 n).drop 2 := rfl
    cases hrest : scanChars start bound rest <;>
      rw [hdrop, List.cons_append, List.cons_append, scanChars, if_neg (by decide), if_pos rfl, scanEscape,
        if_pos rfl, hscan] <;>
      simp only [hrest]
  have hplain : scanChars start (bound + 1) (escapeChar false c ++ rest) =
      match scanChars start bound rest with
      | .error e => .error e
      | .ok (s, after) => .ok (c :: s, after) := by
    rcases escapeChar_cases c with ⟨he, hq, hb, hc⟩ | ⟨he, hc⟩ | ⟨d, he, hu, hd⟩
    · cases hrest : scanChars start bound rest <;>
        rw [he, List.singleton_append, scanChars, if_neg hq, if_neg hb, if_neg (by omega), hrest]
    · rw [he]
      exact hunicode _ rest (scanUnicode_hex4 c (by omega) ((isSurrogate_eq_false c).mpr (by omega)) rest hrest)
    · cases hrest : scanChars start bound rest <;>
        rw [he, List.cons_append, List.cons_append, List.nil_append, scanChars, if_neg (by decide),
          if_pos rfl, scanEscape, if_neg hu, hd] <;>
        simp only [hrest]
  cases ascii with
  | false => exact hplain
  | true =>
      rcases escapeChar_ascii c with he | ⟨hplane, he⟩ | ⟨hplane, he⟩
      · rwa [he]
      · rw [he]
        exact hunicode _ rest (scanUnicode_hex4 c hplane (hc rfl) rest hrest)
      · rw [he, List.append_assoc]
        exact hunicode _ _ (scanUnicode_pair c hplane rest hrest)

theorem escapeChar_ne_nil (ascii : Bool) (c : CodePoint) : escapeChar ascii c ≠ [] := by
  have hplain : escapeChar false c ≠ [] := by
    rcases escapeChar_cases c with ⟨he, -⟩ | ⟨he, -⟩ | ⟨d, he, -⟩ <;> simp [he, hex4]
  cases ascii with
  | false => exact hplain
  | true => rcases escapeChar_ascii c with he | ⟨-, he⟩ | ⟨-, he⟩ <;> simp [he, hplain, hex4]

theorem scanChars_flatMap (ascii : Bool) (start bound : Nat) (s r : PyStr) (hs : ∀ c ∈ s, Escapable ascii c)
    (h : s.length < bound) :
    scanChars start bound (s.flatMap (escapeChar ascii) ++ cp '"' :: r) = .ok (s, r) := by
  induction s generalizing bound with
  | nil =>
      obtain ⟨bound, rfl⟩ := Nat.exists_eq_add_of_lt h
      rfl
  | cons c s ih =>
      rw [List.length_cons] at h
      obtain ⟨hc, hrest⟩ := List.forall_mem_cons.mp hs
      obtain ⟨bound, rfl⟩ := Nat.exists_eq_succ_of_ne_zero (show bound ≠ 0 by omega)
      rw [List.flatMap_cons, List.append_assoc, scanChars_escapeChar _ _ _ _ hc _ (by simp),
        ih bound hrest (by omega)]

theorem length_le_flatMap (ascii : Bool) (s : PyStr) : s.length ≤ (s.flatMap (escapeChar ascii)).length := by
  induction s with
  | nil => exact Nat.le_refl _
  | cons c s ih =>
      have hc := List.length_pos_of_ne_nil (escapeChar_ne_nil ascii c)
      rw [List.flatMap_cons, List.length_append, List.length_cons]
      omega

theorem scanString_encodeString (ascii : Bool) (s r : PyStr) (hs : ∀ c ∈ s, Escapable ascii c) :
    ∃ text, encodeString ascii s ++ r = cp '"' :: text ∧ scanString text = .ok (s, r) := by
  refine ⟨s.flatMap (escapeChar ascii) ++ cp '"' :: r, by simp [encodeString], ?_⟩
  have h := length_le_flatMap ascii s
  exact scanChars_flatMap _ _ _ s r hs (by rw [List.length_append]; omega)

end Strings

section Lists

structure IsStart (c : CodePoint) : Prop where
  ascii : c.val < 0x80
  notWs : isWs c = false
  notBracket : c ≠ cp ']'
  notBrace : c ≠ cp '}'

-- The text is read back as `a`, whatever follows it.
structure ReadsAs (item : PyStr → Scan α) (text : PyStr) (a : α) : Prop where
  start : ∃ c rest, text = c :: rest ∧ IsStart c
  reads : ∀ r, NumberEnd r → item (text ++ r) = .ok (a, r)

theorem ReadsAs.skipWs {item : PyStr → Scan α} {text : PyStr} {a : α} (h : ReadsAs item text a)
    (r : PyStr) : skipWs (text ++ r) = text ++ r := by
  obtain ⟨c, rest, rfl, hc⟩ := h.start
  simp [Json.skipWs, hc.notWs]

theorem skipWs_cons (c : CodePoint) (s : PyStr) (h : isWs c = false) : skipWs (c :: s) = c :: s := by
  simp [skipWs, h]

-- A comma with white space behind it.
def Separates (sep : PyStr) : Prop := ∀ s, ∃ gap, sep ++ s = cp ',' :: gap ∧ skipWs gap = skipWs s

theorem itemSep_append (st : Style) : Separates st.itemSep := by
  intro s
  unfold Style.itemSep
  split
  · exact ⟨cp ' ' :: s, rfl, rfl⟩
  · exact ⟨s, rfl, rfl⟩

theorem keySep_append (st : Style) (s : PyStr) :
    ∃ gap, st.keySep ++ s = cp ':' :: gap ∧ skipWs gap = skipWs s := by
  unfold Style.keySep
  split
  · exact ⟨cp ' ' :: s, rfl, rfl⟩
  · exact ⟨s, rfl, rfl⟩

-- The items of a list up to the bracket that closes it, which white space may precede.
theorem parseList_separated (sep : PyStr) (hseparates : Separates sep) (item : PyStr → Scan α) (close : CodePoint)
    (hcomma : cp ',' ≠ close) (texts : List PyStr) (as : List α) (h : List.Forall₂ (ReadsAs item) texts as)
    (hne : texts ≠ []) (bound : Nat) (hbound : texts.length ≤ bound) (tail r : PyStr) (hend : NumberEnd tail)
    (hclose : skipWs tail = close :: r) :
    parseList item close bound (joinWith sep texts ++ tail) = .ok (as, r) := by
  induction h generalizing bound with
  | nil => exact absurd rfl hne
  | @cons text a texts as htext hrest ih =>
      obtain ⟨bound, rfl⟩ : ∃ b, bound = b + 1 :=
        Nat.exists_eq_succ_of_ne_zero (by simp only [List.length_cons] at hbound; omega)
      cases hrest with
      | nil =>
          rw [joinWith, parseList, htext.reads _ hend]
          simp only [hclose, if_pos]
      | @cons text' a' texts as htext' hrest =>
          have hih := ih (by simp) bound (by simpa using hbound)
          obtain ⟨gap, hgap, hskip⟩ := hseparates (joinWith sep (text' :: texts) ++ tail)
          have hfirst : skipWs (joinWith sep (text' :: texts) ++ tail) = joinWith sep (text' :: texts) ++ tail := by
            cases texts with
            | nil => exact htext'.skipWs _
            | cons text'' texts =>
                rw [joinWith, List.append_assoc, List.append_assoc]
                exact htext'.skipWs _
          have hsep : NumberEnd (cp ',' :: gap) := ⟨by decide, by decide, by decide, by decide⟩
          rw [joinWith, List.append_assoc, List.append_assoc, hgap, parseList, htext.reads _ hsep]
          simp only [skipWs_cons _ _ (show isWs (cp ',') = false by decide), if_neg hcomma, if_pos,
            hskip, hfirst, hih]

theorem parseList_joinWith (st : Style) (item : PyStr → Scan α) (close : CodePoint)
    (hclose : close = cp ']' ∨ close = cp '}') (texts : List PyStr) (as : List α)
    (h : List.Forall₂ (ReadsAs item) texts as) (hne : texts ≠ []) (bound : Nat)
    (hbound : texts.length ≤ bound) (r : PyStr) :
    parseList item close bound (joinWith st.itemSep texts ++ close :: r) = .ok (as, r) := by
  have hend : NumberEnd (close :: r) ∧ isWs close = false := by
    rcases hclose with rfl | rfl <;> exact ⟨⟨by decide, by decide, by decide, by decide⟩, by decide⟩
  have hcomma : cp ',' ≠ close := by
    rcases hclose with rfl | rfl <;> decide
  exact parseList_separated st.itemSep (itemSep_append st) item close hcomma texts as h hne bound hbound _ r hend.1
    (skipWs_cons close r hend.2)

theorem length_le_joinWith (sep : PyStr) (texts : List PyStr) (h : ∀ t ∈ texts, t ≠ []) :
    texts.length ≤ (joinWith sep texts).length := by
  induction texts with
  | nil => exact Nat.le_refl _
  | cons t texts ih =>
      obtain ⟨ht, hrest⟩ := List.forall_mem_cons.mp h
      have hpos := List.length_pos_of_ne_nil ht
      cases texts with
      | nil => exact hpos
      | cons u texts =>
          have := ih hrest
          simp only [joinWith, List.length_append, List.length_cons] at this ⊢
          omega

theorem ReadsAs.ne_nil {item : PyStr → Scan α} {text : PyStr} {a : α} (h : ReadsAs item text a) :
    text ≠ [] := by
  obtain ⟨c, rest, rfl, -⟩ := h.start
  simp

end Lists

section Values

theorem parseValue_eq (limit : Nat) : ∃ nested, parseValue limit = parseStep nested := by
  cases limit with
  | zero => exact ⟨none, rfl⟩
  | succ limit => exact ⟨some (parseValue limit), rfl⟩

theorem parseStep_literal (nested : Option (PyStr → Scan Json)) (l : PyStr × Json)
    (hl : l ∈ literals) (r : PyStr) : parseStep nested (l.1 ++ r) = .ok (l.2, r) := by
  simp only [literals, List.mem_cons, List.not_mem_nil, or_false] at hl
  rcases hl with rfl | rfl | rfl | rfl | rfl | rfl <;> rfl

theorem literal_readsAs (limit : Nat) (l : PyStr × Json) (hl : l ∈ literals) :
    ReadsAs (parseValue limit) l.1 l.2 := by
  obtain ⟨nested, hnested⟩ := parseValue_eq limit
  refine ⟨?_, fun r _ => by rw [hnested, parseStep_literal nested l hl]⟩
  simp only [literals, List.mem_cons, List.not_mem_nil, or_false] at hl
  rcases hl with rfl | rfl | rfl | rfl | rfl | rfl <;>
    exact ⟨_, _, rfl, by decide, by decide, by decide, by decide⟩

theorem scanNumber_head (c : CodePoint) (s rest : PyStr) (n : NumberText)
    (h : scanNumber (c :: s) = some (n, rest)) : c = cp '-' ∨ c.isDigit = true := by
  by_cases hc : c = cp '-'
  · exact .inl hc
  · right
    simp only [scanNumber, List.head?_cons, Option.some.injEq, hc, decide_false, if_false,
      scanWhole] at h
    by_cases h0 : c = cp '0'
    · subst h0
      decide
    · by_contra hd
      simp [h0, hd] at h

theorem parseLiteral_number (s rest : PyStr) (n : NumberText) (h : scanNumber s = some (n, rest)) :
    parseLiteral s = none := by
  refine List.findSome?_eq_none_iff.mpr fun l hl => ?_
  split
  · rename_i htake
    rw [← List.take_append_drop l.1.length s, htake] at h
    simp only [literals, List.mem_cons, List.not_mem_nil, or_false] at hl
    rcases hl with rfl | rfl | rfl | rfl | rfl | rfl <;> cases h
  · rfl

theorem number_readsAs (limit : Nat) (text : PyStr) (n : NumberText) (j : Json)
    (h : scanNumber text = some (n, [])) (hj : ∀ r, NumberEnd r → parseNumber (text ++ r) = .ok (j, r)) :
    ReadsAs (parseValue limit) text j := by
  obtain ⟨nested, hnested⟩ := parseValue_eq limit
  cases text with
  | nil => cases h
  | cons c text =>
      have hc := scanNumber_head c text [] n h
      have hne : ∀ d : CodePoint, d.isDigit = false → d ≠ cp '-' → c ≠ d := by
        rintro d hd hm rfl
        rcases hc with rfl | hc
        · exact hm rfl
        · rw [hd] at hc
          cases hc
      constructor
      · have hws : isWs c = false := by
          simp only [isWs, Bool.or_eq_false_iff, decide_eq_false_iff_not]
          exact ⟨⟨⟨hne _ (by decide) (by decide), hne _ (by decide) (by decide)⟩,
            hne _ (by decide) (by decide)⟩, hne _ (by decide) (by decide)⟩
        have hascii : c.val < 0x80 := by
          rcases hc with rfl | hc
          · decide
          · simp only [CodePoint.isDigit, Bool.and_eq_true, decide_eq_true_eq] at hc
            omega
        exact ⟨c, text, rfl, hascii, hws, hne _ (by decide) (by decide), hne _ (by decide) (by decide)⟩
      · intro r hr
        have hscan := scanNumber_append (c :: text) r [] n h hr
        rw [List.cons_append] at hscan ⊢
        simp only [hnested, parseStep, hne (cp '"') (by decide) (by decide),
          hne (cp '{') (by decide) (by decide), hne (cp '[') (by decide) (by decide), if_false,
          parseLiteral_number _ _ _ hscan]
        exact hj r hr

theorem float_readsAs (limit : Nat) (x : Float) :
    ReadsAs (parseValue limit) (floatText x) (.float x) := by
  have hx := ofModel_pack_unpack x
  unfold floatText
  cases hd : exactDecimal x with
  | some d =>
      obtain ⟨n, hscan, hint, hval⟩ := finiteRepr_scan x d hd
      refine number_readsAs limit _ n _ hscan fun r hr => ?_
      rw [parseNumber, scanNumber_append _ r [] n hscan hr]
      simp [hint, hval]
  | none =>
      have hlit := literal_readsAs limit
      simp only
      split <;> rename_i hu
      · rw [hu] at hx
        exact hx ▸ hlit (py "Infinity", _) (by simp [literals])
      · rw [hu] at hx
        exact hx ▸ hlit (py "-Infinity", _) (by simp [literals])
      · have hnan : x.toModel.unpack = .notANumber := by
          unfold exactDecimal at hd
          cases hcase : x.toModel.unpack with
          | notANumber => rfl
          | infinity s => cases s <;> simp_all
          | zero s => simp [hcase] at hd
          | finite s m e hm => simp only [hcase] at hd; split at hd <;> cases hd
        rw [hnan] at hx
        exact hx ▸ hlit (py "NaN", _) (by simp [literals])

def order (st : Style) (j : Json) : Json := if st.sortKeys then norm j else j

theorem encodeString_readsAs (ascii : Bool) (limit : Nat) (s : PyStr) (hs : ∀ c ∈ s, Escapable ascii c) :
    ReadsAs (parseValue limit) (encodeString ascii s) (.str s) := by
  obtain ⟨nested, hnested⟩ := parseValue_eq limit
  refine ⟨⟨_, _, rfl, by decide, by decide, by decide, by decide⟩, fun r _ => ?_⟩
  obtain ⟨text, htext, hscan⟩ := scanString_encodeString ascii s r hs
  simp only [htext, hnested, parseStep, if_true, hscan]

theorem int_readsAs (limit : Nat) (n : Int) (h : (natText n.natAbs).length ≤ maxIntDigits) :
    ReadsAs (parseValue limit) (intText n) (.int n) := by
  have hscan := scanNumber_intText n [] trivial
  rw [List.append_nil] at hscan
  refine number_readsAs limit _ _ _ hscan fun r hr => ?_
  rw [parseNumber, scanNumber_intText n r hr]
  simp only [NumberText.isInt, decide_true, Bool.and_self, if_true, if_pos h, toInt_intText]

theorem forall₂_of_sequence (R : PyStr → β → Prop) (f : α → Except EncodeError PyStr)
    (g : α → β) (as : List α) (texts : List PyStr) (h : sequence (as.map f) = .ok texts)
    (hR : ∀ a ∈ as, ∀ text, f a = .ok text → R text (g a)) : List.Forall₂ R texts (as.map g) := by
  rw [sequence_eq_ok_iff] at h
  induction as generalizing texts with
  | nil =>
      obtain rfl := List.map_eq_nil_iff.mp h.symm
      exact .nil
  | cons a as ih =>
      cases texts with
      | nil => cases h
      | cons t texts =>
          rw [List.map_cons, List.map_cons, List.cons.injEq] at h
          exact .cons (hR a (by simp) t h.1) (ih texts h.2 fun b hb => hR b (List.mem_cons_of_mem _ hb))

theorem joinWith_start (sep : PyStr) (item : PyStr → Scan α) (texts : List PyStr) (as : List α)
    (h : List.Forall₂ (ReadsAs item) texts as) (hne : texts ≠ []) (r : PyStr) :
    skipWs (joinWith sep texts ++ r) = joinWith sep texts ++ r ∧ (joinWith sep texts ++ r).head? ≠ some (cp ']') ∧
      (joinWith sep texts ++ r).head? ≠ some (cp '}') := by
  cases h with
  | nil => exact absurd rfl hne
  | @cons text a texts as htext _ =>
      obtain ⟨rest, hrest⟩ : ∃ rest, joinWith sep (text :: texts) ++ r = text ++ rest := by
        cases texts with
        | nil => exact ⟨r, rfl⟩
        | cons t texts => exact ⟨_, by rw [joinWith, List.append_assoc, List.append_assoc]⟩
      obtain ⟨c, tail, hc, hstart⟩ := htext.start
      rw [hrest]
      refine ⟨htext.skipWs rest, ?_, ?_⟩ <;> simp [hc, hstart.notBracket, hstart.notBrace]

theorem parseList_bound (sep : PyStr) (item : PyStr → Scan α) (texts : List PyStr) (as : List α)
    (h : List.Forall₂ (ReadsAs item) texts as) (tail : PyStr) :
    texts.length ≤ (joinWith sep texts ++ tail).length + 1 := by
  have hne : ∀ t ∈ texts, t ≠ [] := by
    induction h with
    | nil => simp
    | cons htext _ ih => exact List.forall_mem_cons.mpr ⟨htext.ne_nil, ih⟩
  have := length_le_joinWith sep texts hne
  rw [List.length_append]
  omega

theorem parseArray_joinWith (st : Style) (value : PyStr → Scan Json) (texts : List PyStr)
    (items : List Json) (h : List.Forall₂ (ReadsAs value) texts items) (r : PyStr) :
    parseArray value (joinWith st.itemSep texts ++ cp ']' :: r) = .ok (.arr items, r) := by
  by_cases hne : texts = []
  · subst hne
    cases h
    rfl
  · obtain ⟨hskip, hbracket, -⟩ := joinWith_start st.itemSep value texts items h hne (cp ']' :: r)
    rw [parseArray, hskip, if_neg hbracket, parseList_joinWith st value (cp ']') (.inl rfl) texts items h hne _
      (parseList_bound st.itemSep value texts items h _) r]

-- The key may read as another text than the one that was written.
theorem member_readsAs_key (st : Style) (value : PyStr → Scan Json) (key key' text : PyStr) (j : Json)
    (hkey : ∀ r, ∃ rest, encodeString st.ensureAscii key ++ r = cp '"' :: rest ∧ scanString rest = .ok (key', r))
    (h : ReadsAs value text j) :
    ReadsAs (parseMember value) (encodeString st.ensureAscii key ++ st.keySep ++ text) (key', j) := by
  refine ⟨⟨_, _, rfl, by decide, by decide, by decide, by decide⟩, fun r hr => ?_⟩
  obtain ⟨gap, hgap, hskip⟩ := keySep_append st (text ++ r)
  obtain ⟨rest, hrest, hscan⟩ := hkey (cp ':' :: gap)
  rw [List.append_assoc, List.append_assoc, hgap, hrest]
  simp only [parseMember, if_true, hscan, skipWs_cons (cp ':') gap (by decide), hskip, h.skipWs r,
    h.reads r hr]

theorem member_readsAs (st : Style) (value : PyStr → Scan Json) (key text : PyStr) (j : Json)
    (hkey : ∀ c ∈ key, Escapable st.ensureAscii c) (h : ReadsAs value text j) :
    ReadsAs (parseMember value) (encodeString st.ensureAscii key ++ st.keySep ++ text) (key, j) :=
  member_readsAs_key st value key key text j (fun r => scanString_encodeString st.ensureAscii key r hkey) h

-- A name that is written twice keeps its last value.
theorem parseObject_joinWith_dictOf (st : Style) (value : PyStr → Scan Json) (texts : List PyStr)
    (fields : List (PyStr × Json)) (h : List.Forall₂ (ReadsAs (parseMember value)) texts fields) (r : PyStr) :
    parseObject value (joinWith st.itemSep texts ++ cp '}' :: r) = .ok (.obj (dictOf fields), r) := by
  by_cases hne : texts = []
  · subst hne
    cases h
    rfl
  · obtain ⟨hskip, -, hbrace⟩ := joinWith_start st.itemSep _ texts fields h hne (cp '}' :: r)
    rw [parseObject, hskip, if_neg hbrace, parseList_joinWith st _ (cp '}') (.inr rfl) texts fields h hne _
      (parseList_bound st.itemSep _ texts fields h _) r]

theorem parseObject_joinWith (st : Style) (value : PyStr → Scan Json) (texts : List PyStr)
    (fields : List (PyStr × Json)) (h : List.Forall₂ (ReadsAs (parseMember value)) texts fields)
    (hn : (fields.map Prod.fst).Nodup) (r : PyStr) :
    parseObject value (joinWith st.itemSep texts ++ cp '}' :: r) = .ok (.obj fields, r) := by
  rw [parseObject_joinWith_dictOf st value texts fields h r, dictOf_eq fields hn]

theorem order_obj (st : Style) (fields : List (PyStr × Json)) :
    order st (.obj fields) =
      .obj ((if st.sortKeys then sortKeys fields else fields).map fun f => (f.1, order st f.2)) := by
  unfold order
  split
  · simp only [norm, normFields_eq]
    rw [sortKeys_map (fun f : PyStr × Json => (f.1, norm f.2)) (fun _ => rfl)]
  · simp

theorem map_eq_ok (f : α → β) (r : Except ε α) (b : β) (h : r.map f = .ok b) :
    ∃ a, r = .ok a ∧ f a = b := by
  cases r with
  | error e => cases h
  | ok a => exact ⟨a, rfl, Except.ok.inj h⟩

theorem encode_obj_start (st : Style) (limit : Nat) (fields : List (PyStr × Json)) (text : PyStr)
    (h : encode st limit (.obj fields) = .ok text) : ∃ rest, text = cp '{' :: rest := by
  cases limit with
  | zero => cases h
  | succ limit =>
      rw [encode] at h
      obtain ⟨texts, -, rfl⟩ := map_eq_ok _ _ _ h
      exact ⟨_, rfl⟩

theorem order_atom (st : Style) (j : Json) (h : norm j = j) : order st j = j := by
  unfold order
  split
  · exact h
  · rfl

theorem order_arr (st : Style) (items : List Json) :
    order st (.arr items) = .arr (items.map (order st)) := by
  unfold order
  split
  · rw [norm, normItems_eq]
  · simp

-- The text of a value is read back as that value, with its keys in the order of
-- the text.
theorem encode_readsAs (st : Style) (limit : Nat) (j : Json) (hst : AllChars (Escapable st.ensureAscii) j)
    (hw : Wf j) (text : PyStr) (h : encode st limit j = .ok text) :
    ReadsAs (parseValue limit) text (order st j) := by
  induction j using ind generalizing limit text with
  | null =>
      obtain rfl := Except.ok.inj h
      rw [order_atom st _ rfl]
      exact literal_readsAs limit (py "null", .null) (by simp [literals])
  | bool b =>
      rw [order_atom st _ rfl]
      cases b <;> obtain rfl := Except.ok.inj h
      · exact literal_readsAs limit (py "false", .bool false) (by simp [literals])
      · exact literal_readsAs limit (py "true", .bool true) (by simp [literals])
  | int n =>
      rw [order_atom st _ rfl]
      rw [encode] at h
      split at h
      · obtain rfl := Except.ok.inj h
        exact int_readsAs limit n ‹_›
      · cases h
  | float x =>
      rw [order_atom st _ rfl]
      rw [encode] at h
      split at h
      · obtain rfl := Except.ok.inj h
        exact float_readsAs limit x
      · cases h
  | str s =>
      obtain rfl := Except.ok.inj h
      rw [order_atom st _ rfl]
      exact encodeString_readsAs st.ensureAscii limit s hst
  | arr items ih =>
      cases limit with
      | zero => cases h
      | succ limit =>
          rw [Wf, wfItems_iff] at hw
          rw [AllChars, allCharsItems_iff] at hst
          rw [encode, encodeItems_eq] at h
          obtain ⟨texts, htexts, rfl⟩ := map_eq_ok _ _ _ h
          have hall := forall₂_of_sequence (ReadsAs (parseValue limit)) (encode st limit) (order st)
            items texts htexts fun j hj t ht => ih j hj limit (hst j hj) (hw j hj) t ht
          rw [order_arr]
          refine ⟨⟨_, _, rfl, by decide, by decide, by decide, by decide⟩, fun r _ => ?_⟩
          rw [List.cons_append, List.append_assoc]
          exact parseArray_joinWith st (parseValue limit) texts _ hall r
  | obj fields ih =>
      cases limit with
      | zero => cases h
      | succ limit =>
          rw [Wf, wfFields_iff] at hw
          rw [AllChars, allCharsFields_iff] at hst
          rw [encode, encodeFields_eq] at h
          obtain ⟨texts, htexts, rfl⟩ := map_eq_ok _ _ _ h
          -- sorting the encoded entries is encoding the sorted fields
          have hsort : (if st.sortKeys then sortKeys (fields.map fun f => (f.1, encode st limit f.2))
              else fields.map fun f => (f.1, encode st limit f.2)) =
              (if st.sortKeys then sortKeys fields else fields).map
                fun f => (f.1, encode st limit f.2) := by
            split
            · exact sortKeys_map (fun f : PyStr × Json => (f.1, encode st limit f.2)) (fun _ => rfl) fields
            · rfl
          have hperm : (if st.sortKeys then sortKeys fields else fields).Perm fields := by
            split
            · exact sortKeys_perm fields
            · exact List.Perm.refl _
          rw [order_obj]
          generalize (if st.sortKeys then sortKeys fields else fields) = entries at hsort hperm
          simp only [hsort, List.map_map] at htexts
          have hall := forall₂_of_sequence (ReadsAs (parseMember (parseValue limit))) _
            (fun f : PyStr × Json => (f.1, order st f.2)) entries texts htexts ?_
          · refine ⟨⟨_, _, rfl, by decide, by decide, by decide, by decide⟩, fun r _ => ?_⟩
            rw [List.cons_append, List.append_assoc]
            refine parseObject_joinWith st (parseValue limit) texts _ hall ?_ r
            rw [List.map_map]
            exact ((hperm.map Prod.fst).nodup_iff).mpr hw.1
          · intro f hf t ht
            obtain ⟨v, hv, rfl⟩ := map_eq_ok _ _ _ ht
            have hmem := hperm.mem_iff.mp hf
            exact member_readsAs st _ f.1 v _ (hst f hmem).1 (ih f hmem limit (hst f hmem).2 (hw.2 f hmem) v hv)

theorem dropWhile_append_all (p : CodePoint → Bool) (s t : PyStr) (h : ∀ c ∈ s, p c = true) :
    (s ++ t).dropWhile p = t.dropWhile p := by
  rw [List.dropWhile_append, List.dropWhile_eq_nil_iff.mpr h]
  rfl

theorem numberEnd_of_ws (s : PyStr) (h : ∀ c ∈ s, isWs c = true) : NumberEnd s := by
  cases s with
  | nil => trivial
  | cons c s =>
      have hc := h c (by simp)
      simp only [isWs, Bool.or_eq_true, decide_eq_true_eq] at hc
      rcases hc with ((rfl | rfl) | rfl) | rfl <;>
        exact ⟨by decide, by decide, by decide, by decide⟩

-- White space around the text of a value does not matter.
theorem loads_readsAs (limit : Nat) (text pre post : PyStr) (j : Json) (h : ReadsAs (parseValue limit) text j)
    (hpre : ∀ c ∈ pre, isWs c = true) (hpost : ∀ c ∈ post, isWs c = true) :
    loads limit (pre ++ text ++ post) = .ok j := by
  obtain ⟨c, rest, hc, hstart⟩ := h.start
  have hbom : (pre ++ text ++ post).head? ≠ some (chr 0xFEFF) := by
    rw [hc]
    cases pre with
    | nil =>
        rw [List.nil_append, List.cons_append, List.head?_cons, Ne, Option.some.injEq]
        rintro rfl
        exact absurd hstart.ascii (by decide)
    | cons d pre =>
        have hd := hpre d (by simp)
        rw [List.cons_append, List.cons_append, List.head?_cons, Ne, Option.some.injEq]
        rintro rfl
        exact absurd hd (by decide)
  have hskip : skipWs (pre ++ text ++ post) = text ++ post := by
    rw [List.append_assoc, skipWs, dropWhile_append_all isWs pre _ hpre]
    exact h.skipWs post
  have hend : skipWs post = [] := List.dropWhile_eq_nil_iff.mpr hpost
  rw [loads, if_neg hbom, hskip, h.reads post (numberEnd_of_ws post hpost)]
  simp only [hend, if_true]

theorem loads_escapable (st : Style) (limit : Nat) (j : Json) (hst : AllChars (Escapable st.ensureAscii) j)
    (hw : Wf j) (text pre post : PyStr) (h : encode st limit j = .ok text) (hpre : ∀ c ∈ pre, isWs c = true)
    (hpost : ∀ c ∈ post, isWs c = true) : loads limit (pre ++ text ++ post) = .ok (order st j) :=
  loads_readsAs limit text pre post _ (encode_readsAs st limit j hst hw text h) hpre hpost

theorem loads_padded (st : Style) (hst : st.ensureAscii = false) (limit : Nat) (j : Json) (hw : Wf j)
    (text pre post : PyStr) (h : encode st limit j = .ok text) (hpre : ∀ c ∈ pre, isWs c = true)
    (hpost : ∀ c ∈ post, isWs c = true) : loads limit (pre ++ text ++ post) = .ok (order st j) := by
  have hescapable : AllChars (Escapable st.ensureAscii) j := by
    refine allChars_of_forall _ (fun c hascii => ?_) j
    rw [hst] at hascii
    cases hascii
  exact loads_escapable st limit j hescapable hw text pre post h hpre hpost

theorem loads_encode (st : Style) (hst : st.ensureAscii = false) (limit : Nat) (j : Json) (hw : Wf j)
    (text : PyStr) (h : encode st limit j = .ok text) : loads limit text = .ok (order st j) := by
  simpa using loads_padded st hst limit j hw text [] [] h (by simp) (by simp)

-- White space of Python that is none of JSON's cannot stand before a value.
theorem loads_space_error (limit : Nat) (pre rest : PyStr) (c : CodePoint)
    (hpre : ∀ d ∈ pre, isWs d = true) (hspace : c.isSpace = true) (hws : isWs c = false) :
    ∃ e, loads limit (pre ++ c :: rest) = .error e := by
  have hne : ∀ d : CodePoint, d.isSpace = false → c ≠ d := by
    rintro d hd rfl
    rw [hspace] at hd
    cases hd
  have hskip : skipWs (pre ++ c :: rest) = c :: rest := by
    rw [skipWs, dropWhile_append_all isWs pre _ hpre]
    exact skipWs_cons c rest hws
  have hliteral : parseLiteral (c :: rest) = none := by
    refine List.findSome?_eq_none_iff.mpr fun l hl => ?_
    split
    · rename_i htake
      have hhead : ∃ d t, l.1 = d :: t ∧ d.isSpace = false := by
        simp only [literals, List.mem_cons, List.not_mem_nil, or_false] at hl
        rcases hl with rfl | rfl | rfl | rfl | rfl | rfl <;> exact ⟨_, _, rfl, by decide⟩
      obtain ⟨d, t, hl, hd⟩ := hhead
      rw [hl, List.length_cons, List.take_succ_cons] at htake
      exact absurd (List.cons.inj htake).1 (hne d hd)
    · rfl
  have hnumber : scanNumber (c :: rest) = none := by
    cases hn : scanNumber (c :: rest) with
    | none => rfl
    | some pair =>
        rcases scanNumber_head c rest pair.2 pair.1 hn with h | h
        · exact absurd h (hne _ (by decide))
        · simp only [CodePoint.isDigit, Bool.and_eq_true, decide_eq_true_eq] at h
          simp only [CodePoint.isSpace, Bool.or_eq_true, Bool.and_eq_true, decide_eq_true_eq] at hspace
          omega
  obtain ⟨nested, hnested⟩ := parseValue_eq limit
  unfold loads
  split
  · exact ⟨_, rfl⟩
  · rw [hskip, hnested]
    simp only [parseStep, hne (cp '"') (by decide), hne (cp '{') (by decide), hne (cp '[') (by decide),
      if_false, hliteral, parseNumber, hnumber]
    exact ⟨_, rfl⟩

-- Equal texts come from equal values.
theorem encode_injective (st : Style) (hst : st.ensureAscii = false) (limit : Nat) (j k : Json)
    (hj : Wf j) (hk : Wf k) (text : PyStr) (h : encode st limit j = .ok text)
    (h' : encode st limit k = .ok text) : order st j = order st k := by
  have hl := loads_encode st hst limit j hj text h
  rw [loads_encode st hst limit k hk text h'] at hl
  exact (Except.ok.inj hl).symm

-- Sorting while writing is writing what has been sorted.
theorem encode_order (st : Style) (limit : Nat) (j : Json) :
    encode st limit j = encode { st with sortKeys := false } limit (order st j) := by
  induction j using ind generalizing limit with
  | arr items ih =>
      cases limit with
      | zero => rw [order_arr]; rfl
      | succ limit =>
          have hitems : items.map (encode st limit) =
              (items.map (order st)).map (encode { st with sortKeys := false } limit) := by
            rw [List.map_map]
            exact List.map_congr_left fun j hj => ih j hj limit
          rw [order_arr, encode, encode, encodeItems_eq, encodeItems_eq, hitems]
          rfl
  | obj fields ih =>
      cases limit with
      | zero => rw [order_obj]; rfl
      | succ limit =>
          have hfields : (if st.sortKeys then sortKeys (fields.map fun f => (f.1, encode st limit f.2))
              else fields.map fun f => (f.1, encode st limit f.2)) =
              ((if st.sortKeys then sortKeys fields else fields).map fun f => (f.1, order st f.2)).map
                fun f => (f.1, encode { st with sortKeys := false } limit f.2) := by
            have hvalue : ∀ entries : List (PyStr × Json), (∀ f ∈ entries, f ∈ fields) →
                entries.map (fun f => (f.1, encode st limit f.2)) =
                  (entries.map fun f => (f.1, order st f.2)).map
                    fun f => (f.1, encode { st with sortKeys := false } limit f.2) := by
              intro entries hsub
              rw [List.map_map]
              exact List.map_congr_left fun f hf => Prod.ext rfl (ih f (hsub f hf) limit)
            split
            · rw [sortKeys_map (fun f : PyStr × Json => (f.1, encode st limit f.2)) (fun _ => rfl)]
              exact hvalue _ fun f hf => (sortKeys_perm _).mem_iff.mp hf
            · exact hvalue _ fun f hf => hf
          rw [order_obj, encode, encode, encodeFields_eq, encodeFields_eq]
          dsimp only
          rw [hfields]
          rfl
  | bool b =>
      rw [order_atom st _ rfl]
      cases b <;> rfl
  | _ =>
      rw [order_atom st _ rfl]
      rfl

-- A sorted style does not see the order of the keys.
theorem encode_norm (st : Style) (hst : st.sortKeys = true) (limit : Nat) (j : Json) :
    encode st limit (norm j) = encode st limit j := by
  induction j using ind generalizing limit with
  | arr items ih =>
      cases limit with
      | zero => rfl
      | succ limit =>
          have hitems : (items.map norm).map (encode st limit) = items.map (encode st limit) := by
            rw [List.map_map]
            exact List.map_congr_left fun j hj => ih j hj limit
          simp only [norm, normItems_eq, encode, encodeItems_eq, hitems]
  | obj fields ih =>
      cases limit with
      | zero => rfl
      | succ limit =>
          have hfields : (sortKeys (fields.map fun f => (f.1, norm f.2))).map
              (fun f => (f.1, encode st limit f.2)) =
              (sortKeys fields).map fun f => (f.1, encode st limit f.2) := by
            rw [sortKeys_map (fun f : PyStr × Json => (f.1, norm f.2)) (fun _ => rfl), List.map_map]
            refine List.map_congr_left fun f hf => ?_
            exact Prod.ext rfl (ih f ((sortKeys_perm _).mem_iff.mp hf) limit)
          simp only [norm, normFields_eq, encode, encodeFields_eq, hst, if_true]
          rw [hfields, ← sortKeys_map (fun f : PyStr × Json => (f.1, encode st limit f.2)) (fun _ => rfl),
            sortKeys_sorted _ (sortKeys_pairwise _)]
  | _ => rfl

theorem encode_congr (st : Style) (hst : st.sortKeys = true) (limit : Nat) (j k : Json)
    (h : norm j = norm k) : encode st limit j = encode st limit k := by
  rw [← encode_norm st hst limit j, h, encode_norm st hst limit k]

end Values

section Pieces

-- The texts of an encoded value that do not depend on it.
def pieces : List PyStr :=
  literals.map (·.1) ++ [[], [cp '['], [cp ']'], [cp '{'], [cp '}'], [cp ','], [cp ',', cp ' '],
    [cp ':'], [cp ':', cp ' ']]

variable (Q : PyStr → Prop) (append : ∀ s t, Q s → Q t → Q (s ++ t)) (fixed : ∀ s ∈ pieces, Q s)
  (number : ∀ s n, scanNumber s = some (n, []) → Q s)

include append fixed

theorem joinWith_pieces (sep : PyStr) (texts : List PyStr) (hsep : Q sep) (h : ∀ t ∈ texts, Q t) :
    Q (joinWith sep texts) := by
  induction texts with
  | nil => exact fixed [] (by simp [pieces])
  | cons t texts ih =>
      obtain ⟨ht, hrest⟩ := List.forall_mem_cons.mp h
      cases texts with
      | nil => exact ht
      | cons u texts => exact append _ _ (append _ _ ht hsep) (ih hrest)

theorem wrap_pieces (a b : CodePoint) (s : PyStr) (ha : [a] ∈ pieces) (hb : [b] ∈ pieces) (hs : Q s) :
    Q (a :: (s ++ [b])) :=
  append [a] _ (fixed _ ha) (append s [b] hs (fixed _ hb))

include number

-- What holds of the pieces of a text and is kept by concatenation holds of the text.
theorem encode_pieces (st : Style) (string : ∀ s, Q (encodeString st.ensureAscii s)) (limit : Nat) (j : Json)
    (text : PyStr) (h : encode st limit j = .ok text) : Q text := by
  have hitem : Q st.itemSep := by
    unfold Style.itemSep
    split <;> exact fixed _ (by simp [pieces])
  have hkey : Q st.keySep := by
    unfold Style.keySep
    split <;> exact fixed _ (by simp [pieces])
  have hliteral : ∀ s ∈ literals.map (·.1), Q s := fun s hs => fixed s (by
    rw [pieces, List.mem_append]
    exact .inl hs)
  induction j using ind generalizing limit text with
  | null =>
      obtain rfl := Except.ok.inj h
      exact hliteral (py "null") (by simp [literals])
  | bool b =>
      cases b <;> obtain rfl := Except.ok.inj h
      · exact hliteral (py "false") (by simp [literals])
      · exact hliteral (py "true") (by simp [literals])
  | int n =>
      rw [encode] at h
      split at h
      · obtain rfl := Except.ok.inj h
        have hscan := scanNumber_intText n [] trivial
        rw [List.append_nil] at hscan
        exact number _ _ hscan
      · cases h
  | float x =>
      rw [encode] at h
      split at h
      · obtain rfl := Except.ok.inj h
        unfold floatText
        split
        · rename_i d hd
          obtain ⟨n, hscan, -⟩ := finiteRepr_scan x d hd
          exact number _ n hscan
        · split
          · exact hliteral (py "Infinity") (by simp [literals])
          · exact hliteral (py "-Infinity") (by simp [literals])
          · exact hliteral (py "NaN") (by simp [literals])
      · cases h
  | str s =>
      obtain rfl := Except.ok.inj h
      exact string s
  | arr items ih =>
      cases limit with
      | zero => cases h
      | succ limit =>
          rw [encode, encodeItems_eq] at h
          obtain ⟨texts, htexts, rfl⟩ := map_eq_ok _ _ _ h
          rw [sequence_eq_ok_iff] at htexts
          refine wrap_pieces Q append fixed _ _ _ (by simp [pieces]) (by simp [pieces])
            (joinWith_pieces Q append fixed _ _ hitem fun t ht => ?_)
          have hmem : Except.ok t ∈ items.map (encode st limit) := htexts ▸ List.mem_map_of_mem ht
          obtain ⟨j, hj, hjt⟩ := List.mem_map.mp hmem
          exact ih j hj limit t hjt
  | obj fields ih =>
      cases limit with
      | zero => cases h
      | succ limit =>
          rw [encode, encodeFields_eq] at h
          obtain ⟨texts, htexts, rfl⟩ := map_eq_ok _ _ _ h
          rw [sequence_eq_ok_iff] at htexts
          refine wrap_pieces Q append fixed _ _ _ (by simp [pieces]) (by simp [pieces])
            (joinWith_pieces Q append fixed _ _ hitem fun t ht => ?_)
          have hmem : Except.ok t ∈ _ := htexts ▸ List.mem_map_of_mem (f := Except.ok) ht
          obtain ⟨entry, hentry, ht⟩ := List.mem_map.mp hmem
          have hentry' : entry ∈ fields.map fun f => (f.1, encode st limit f.2) := by
            split at hentry
            · exact (sortKeys_perm _).mem_iff.mp hentry
            · exact hentry
          obtain ⟨f, hf, rfl⟩ := List.mem_map.mp hentry'
          obtain ⟨v, hv, rfl⟩ := map_eq_ok _ _ _ ht
          exact append _ _ (append _ _ (string f.1) hkey) (ih f hf limit v hv)

omit append fixed number

theorem hex4_printable (n : Nat) (d : CodePoint) (h : d ∈ hex4 n) : 0x20 ≤ d.val := by
  have hhex : ∀ n, n < 16 → 0x20 ≤ (hexChar n).val := by decide
  simp only [hex4, List.mem_cons, List.not_mem_nil, or_false] at h
  rcases h with rfl | rfl | rfl | rfl | rfl | rfl
  · decide
  · decide
  all_goals exact hhex _ (Nat.mod_lt _ (by decide))

theorem escapeChar_printable (ascii : Bool) (c d : CodePoint) (h : d ∈ escapeChar ascii c) : 0x20 ≤ d.val := by
  have hshort : ∀ p ∈ shortEscapes, 0x20 ≤ p.2.val := by
    have hall : (shortEscapes.all fun p => 0x20 ≤ p.2.val) = true := by decide
    simpa only [List.all_eq_true, decide_eq_true_eq] using hall
  have hplain : ∀ d ∈ escapeChar false c, 0x20 ≤ d.val := by
    intro d h
    unfold escapeChar at h
    split at h
    · next p e hf =>
        rcases List.mem_cons.mp h with rfl | h
        · decide
        · rw [List.mem_singleton.mp h]
          exact hshort _ (List.mem_of_find?_eq_some hf)
    · split at h
      · exact hex4_printable _ d h
      · rw [if_neg (by simp)] at h
        rw [List.mem_singleton.mp h]
        omega
  cases ascii with
  | false => exact hplain d h
  | true =>
      rcases escapeChar_ascii c with he | ⟨-, he⟩ | ⟨-, he⟩
      · exact hplain d (he ▸ h)
      · exact hex4_printable _ d (he ▸ h)
      · rw [he] at h
        exact (List.mem_append.mp h).elim (hex4_printable _ d) (hex4_printable _ d)

-- An encoded value is one line.
theorem encode_printable (st : Style) (limit : Nat) (j : Json) (text : PyStr) (h : encode st limit j = .ok text) :
    ∀ c ∈ text, 0x20 ≤ c.val := by
  refine encode_pieces (fun s => ∀ c ∈ s, 0x20 ≤ c.val) ?_ ?_ ?_ st ?_ limit j text h
  · intro s t hs ht c hc
    exact (List.mem_append.mp hc).elim (hs c) (ht c)
  · have hall : pieces.all (fun s => s.all fun c => 0x20 ≤ c.val) = true := by decide
    simpa only [List.all_eq_true, decide_eq_true_eq] using hall
  · intro s n hs c hc
    obtain ⟨number, rfl, -, hchars⟩ := scanNumber_chars s [] n hs
    rw [List.append_nil] at hc
    have := hchars c hc
    simp only [isNumberChar, CodePoint.isDigit, Bool.or_eq_true, Bool.and_eq_true,
      decide_eq_true_eq] at this
    rcases this with (((((h | rfl) | rfl) | rfl) | rfl) | rfl)
    · omega
    all_goals decide
  · intro s c hc
    simp only [encodeString, List.mem_cons, List.mem_append, List.mem_flatMap, List.not_mem_nil,
      or_false] at hc
    rcases hc with rfl | ⟨d, -, hd⟩ | rfl
    · decide
    · exact escapeChar_printable _ d c hd
    · decide

end Pieces

end V91Core.Json
