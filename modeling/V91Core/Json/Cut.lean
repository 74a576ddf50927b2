import V91Core.Json.Chars
import V91Core.Json.Lexer

namespace V91Core.Json

open V91Core.Python

section Scans

-- From the first state to the second one, the lexer reads what the scan reads.
def Lexes (q q' : LexState) (s : PyStr) : Scan α → Prop
  | .ok (_, rest) => lex q s = lex q' rest
  | .error _ => True

theorem lex_closed_append (s t : PyStr) (h : Closed s) : lex .out (s ++ t) = lex .out t := by
  rw [lex_append, h, Option.bind_some]

theorem lex_plain (c : CodePoint) (s : PyStr) (h : c ≠ cp '"' ∧ c ≠ cp '\\' ∧ c ≠ cp '|') :
    lex .out (c :: s) = lex .out s :=
  lex_closed_append [c] s (closed_of_plain [c] (by simpa using h))

theorem lex_skipWs (s : PyStr) : lex .out (skipWs s) = lex .out s := by
  have hws : ∀ c ∈ s.takeWhile isWs, c ≠ cp '"' ∧ c ≠ cp '\\' ∧ c ≠ cp '|' := by
    intro c hc
    have hspace := List.mem_takeWhile_imp hc
    refine ⟨?_, ?_, ?_⟩
    all_goals
      rintro rfl
      revert hspace
      decide
  calc lex .out (skipWs s) = lex .out (s.takeWhile isWs ++ skipWs s) :=
    (lex_closed_append _ _ (closed_of_plain _ hws)).symm
    _ = lex .out s := by rw [skipWs, List.takeWhile_append_dropWhile]

theorem lex_hexValue (c : CodePoint) (n : Nat) (s : PyStr) (h : hexValue c = some n) :
    lex .str (c :: s) = lex .str s := by
  have hquote : c ≠ cp '"' := by
    rintro rfl
    rw [show hexValue (cp '"') = none by decide] at h
    cases h
  have hslash : c ≠ cp '\\' := by
    rintro rfl
    rw [show hexValue (cp '\\') = none by decide] at h
    cases h
  rw [lex, lexStep, if_neg hquote, if_neg hslash]
  rfl

theorem lex_scanHex4 (s rest : PyStr) (n : Nat) (h : scanHex4 s = some (n, rest)) : lex .str s = lex .str rest := by
  unfold scanHex4 at h
  split at h
  · split at h
    · next _ _ _ _ ha hb hc hd =>
        obtain ⟨-, rfl⟩ := Prod.mk.inj (Option.some.inj h)
        rw [lex_hexValue _ _ _ ha, lex_hexValue _ _ _ hb, lex_hexValue _ _ _ hc, lex_hexValue _ _ _ hd]
    · cases h
  · cases h

theorem scanUnicode_lex (s : PyStr) : Lexes .str .str s (scanUnicode s) := by
  unfold scanUnicode
  split
  · trivial
  · split
    · trivial
    · next u rest hu =>
        have hfirst := lex_scanHex4 s rest u hu
        split
        · next hpair =>
            split
            · trivial
            · next v after hv =>
                have hrest : rest = cp '\\' :: cp 'u' :: rest.drop 2 := by
                  have htake := List.take_append_drop 2 rest
                  rw [hpair.2.2.2] at htake
                  exact htake.symm
                split
                · change lex .str s = lex .str after
                  rw [hfirst, hrest, ← lex_scanHex4 _ after v hv]
                  rfl
                · exact hfirst
        · exact hfirst

theorem scanEscape_lex (start : Nat) (s : PyStr) : Lexes .esc .str s (scanEscape start s) := by
  cases s with
  | nil => trivial
  | cons c rest =>
      have hstep : lex .esc (c :: rest) = lex .str rest := rfl
      simp only [scanEscape]
      split
      · have h := scanUnicode_lex rest
        cases hu : scanUnicode rest with
        | error e => trivial
        | ok pair =>
            rw [hu] at h
            exact hstep.trans h
      · split
        · exact hstep
        · trivial

theorem scanChars_lex (start bound : Nat) (s : PyStr) : Lexes .str .out s (scanChars start bound s) := by
  induction bound generalizing s with
  | zero => trivial
  | succ bound ih =>
      cases s with
      | nil => trivial
      | cons c rest =>
          simp only [scanChars]
          by_cases hquote : c = cp '"'
          · rw [if_pos hquote, hquote]
            rfl
          rw [if_neg hquote]
          by_cases hslash : c = cp '\\'
          · rw [if_pos hslash, hslash]
            have he := scanEscape_lex start rest
            cases hu : scanEscape start rest with
            | error e => trivial
            | ok pair =>
                rw [hu] at he
                have h := ih pair.2
                cases hc : scanChars start bound pair.2 with
                | error e =>
                    simp only [hc]
                    trivial
                | ok tail =>
                    rw [hc] at h
                    simp only [hc]
                    exact Eq.trans he h
          rw [if_neg hslash]
          have hstep : lex .str (c :: rest) = lex .str rest := by
            rw [lex, lexStep, if_neg hquote, if_neg hslash]
            rfl
          split
          · trivial
          · have h := ih rest
            cases hc : scanChars start bound rest with
            | error e => trivial
            | ok tail =>
                rw [hc] at h
                exact hstep.trans h

theorem scanString_lex (s : PyStr) : Lexes .str .out s (scanString s) := scanChars_lex _ _ s

end Scans

section Values

theorem parseList_lex (item : PyStr → Scan α) (close : CodePoint)
    (hclose : close ≠ cp '"' ∧ close ≠ cp '\\' ∧ close ≠ cp '|') (hitem : ∀ s, Lexes .out .out s (item s))
    (bound : Nat) (s : PyStr) : Lexes .out .out s (parseList item close bound s) := by
  induction bound generalizing s with
  | zero => trivial
  | succ bound ih =>
      have hv := hitem s
      simp only [parseList]
      cases hj : item s with
      | error e => trivial
      | ok pair =>
          obtain ⟨a, rest⟩ := pair
          rw [hj] at hv
          have hws := lex_skipWs rest
          simp only
          cases hrest : skipWs rest with
          | nil => trivial
          | cons c rest' =>
              rw [hrest] at hws
              have hread : lex .out s = lex .out (c :: rest') := Eq.trans hv hws.symm
              simp only
              by_cases hend : c = close
              · rw [if_pos hend]
                exact hread.trans (lex_plain c rest' (hend ▸ hclose))
              rw [if_neg hend]
              by_cases hcomma : c = cp ','
              · rw [if_pos hcomma]
                have h := ih (skipWs rest')
                have hstep : lex .out (c :: rest') = lex .out (skipWs rest') := by
                  rw [lex_plain c rest' (by rw [hcomma]; decide), lex_skipWs]
                cases hi : parseList item close bound (skipWs rest') with
                | error e => trivial
                | ok tail =>
                    rw [hi] at h
                    exact (hread.trans hstep).trans h
              · rw [if_neg hcomma]
                trivial

-- An empty list ends with its closing bracket.
theorem lex_tail_skipWs (s : PyStr) (c : CodePoint) (hc : c ≠ cp '"' ∧ c ≠ cp '\\' ∧ c ≠ cp '|')
    (h : (skipWs s).head? = some c) : lex .out s = lex .out (skipWs s).tail := by
  obtain ⟨t, ht⟩ := List.head?_eq_some_iff.mp h
  rw [← lex_skipWs s, ht, lex_plain c t hc, List.tail_cons]

variable (value : PyStr → Scan Json) (hvalue : ∀ s, Lexes .out .out s (value s))

include hvalue

theorem parseMember_lex (s : PyStr) : Lexes .out .out s (parseMember value s) := by
  cases s with
  | nil => trivial
  | cons c rest =>
      simp only [parseMember]
      by_cases hquote : c = cp '"'
      · rw [if_pos hquote, hquote]
        have hs := scanString_lex rest
        cases hk : scanString rest with
        | error e => trivial
        | ok pair =>
            obtain ⟨key, rest₁⟩ := pair
            rw [hk] at hs
            have hws := lex_skipWs rest₁
            simp only
            cases hrest : skipWs rest₁ with
            | nil => trivial
            | cons d rest₂ =>
                rw [hrest] at hws
                simp only
                by_cases hcolon : d = cp ':'
                · rw [if_pos hcolon]
                  have hv := hvalue (skipWs rest₂)
                  have hstep : lex .out (d :: rest₂) = lex .out (skipWs rest₂) := by
                    rw [lex_plain d rest₂ (by rw [hcolon]; decide), lex_skipWs]
                  cases hj : value (skipWs rest₂) with
                  | error e => trivial
                  | ok found =>
                      rw [hj] at hv
                      have hkey : lex .out (cp '"' :: rest) = lex .out rest₁ := hs
                      exact (hkey.trans (hws.symm.trans hstep)).trans hv
                · rw [if_neg hcolon]
                  trivial
      · rw [if_neg hquote]
        trivial

theorem parseArray_lex (s : PyStr) : Lexes .out .out s (parseArray value s) := by
  unfold parseArray
  split
  · next hend => exact lex_tail_skipWs s _ (by decide) hend
  · have h := parseList_lex value (cp ']') (by decide) hvalue (s.length + 1) (skipWs s)
    cases hi : parseList value (cp ']') (s.length + 1) (skipWs s) with
    | error e => trivial
    | ok pair =>
        rw [hi] at h
        exact (lex_skipWs s).symm.trans h

theorem parseObject_lex (s : PyStr) : Lexes .out .out s (parseObject value s) := by
  unfold parseObject
  split
  · next hend => exact lex_tail_skipWs s _ (by decide) hend
  · have h := parseList_lex (parseMember value) (cp '}') (by decide) (parseMember_lex value hvalue) (s.length + 1)
      (skipWs s)
    cases hi : parseList (parseMember value) (cp '}') (s.length + 1) (skipWs s) with
    | error e => trivial
    | ok pair =>
        rw [hi] at h
        exact (lex_skipWs s).symm.trans h

omit hvalue

theorem parseLiteral_lex (s rest : PyStr) (j : Json) (h : parseLiteral s = some (j, rest)) :
    lex .out s = lex .out rest := by
  obtain ⟨l, hl, hfound⟩ := List.exists_of_findSome?_eq_some h
  have hclosed : ∀ l ∈ literals, Closed l.1 := by
    simp only [literals, List.forall_mem_cons]
    exact ⟨rfl, rfl, rfl, rfl, rfl, rfl, List.forall_mem_nil _⟩
  split at hfound
  · next htake =>
      obtain ⟨-, rfl⟩ := Prod.mk.inj (Option.some.inj hfound)
      have hsplit := List.take_append_drop l.1.length s
      rw [htake] at hsplit
      rw [← hsplit, lex_closed_append _ _ (hclosed l hl), List.drop_left]
  · cases hfound

theorem parseNumber_lex (s : PyStr) : Lexes .out .out s (parseNumber s) := by
  unfold parseNumber
  cases hn : scanNumber s with
  | none => trivial
  | some pair =>
      obtain ⟨n, rest⟩ := pair
      obtain ⟨number, rfl, -, hchars⟩ := scanNumber_chars s rest n hn
      have hread : lex .out (number ++ rest) = lex .out rest := by
        refine lex_closed_append _ _ (closed_of_plain number fun c hc => ?_)
        have hnumber := hchars c hc
        refine ⟨?_, ?_, ?_⟩
        all_goals
          rintro rfl
          revert hnumber
          decide
      simp only
      split
      · split
        · exact hread
        · trivial
      · exact hread

theorem parseStep_lex (nested : Option (PyStr → Scan Json))
    (hnested : ∀ value, nested = some value → ∀ s, Lexes .out .out s (value s)) (s : PyStr) :
    Lexes .out .out s (parseStep nested s) := by
  -- a bracket is read outside of strings
  have hcons : ∀ (c : CodePoint) (rest : PyStr) (r : Scan Json), c ≠ cp '"' ∧ c ≠ cp '\\' ∧ c ≠ cp '|' →
      Lexes .out .out rest r → Lexes .out .out (c :: rest) r := by
    intro c rest r hc hr
    cases r with
    | error e => trivial
    | ok pair => exact (lex_plain c rest hc).trans hr
  cases s with
  | nil => trivial
  | cons c rest =>
      simp only [parseStep]
      by_cases hquote : c = cp '"'
      · rw [if_pos hquote, hquote]
        have h := scanString_lex rest
        cases hs : scanString rest with
        | error e => trivial
        | ok pair =>
            rw [hs] at h
            exact h
      rw [if_neg hquote]
      by_cases hobject : c = cp '{'
      · rw [if_pos hobject]
        cases nested with
        | none => trivial
        | some value => exact hcons c rest _ (by rw [hobject]; decide) (parseObject_lex value (hnested value rfl) rest)
      rw [if_neg hobject]
      by_cases harray : c = cp '['
      · rw [if_pos harray]
        cases nested with
        | none => trivial
        | some value => exact hcons c rest _ (by rw [harray]; decide) (parseArray_lex value (hnested value rfl) rest)
      rw [if_neg harray]
      cases hl : parseLiteral (c :: rest) with
      | some found => exact parseLiteral_lex (c :: rest) found.2 found.1 hl
      | none => exact parseNumber_lex (c :: rest)

theorem parseValue_lex (limit : Nat) (s : PyStr) : Lexes .out .out s (parseValue limit s) := by
  induction limit generalizing s with
  | zero => exact parseStep_lex none nofun s
  | succ limit ih =>
      refine parseStep_lex _ (fun value hvalue => ?_) s
      obtain rfl := Option.some.inj hvalue
      exact ih

-- What can be loaded ends outside of strings.
theorem closed_of_loads (limit : Nat) (s : PyStr) (j : Json) (h : loads limit s = .ok j) : Closed s := by
  have hv := parseValue_lex limit (skipWs s)
  unfold loads at h
  split at h
  · cases h
  · split at h
    · cases h
    · next found rest hf =>
        rw [hf] at hv
        split at h
        · next hend =>
            have hrest := lex_skipWs rest
            rw [hend] at hrest
            calc lex .out s = lex .out (skipWs s) := (lex_skipWs s).symm
              _ = lex .out rest := hv
              _ = some .out := hrest.symm
        · cases h

end Values

section Cut

-- Every character of the text that is not ASCII stands inside a string.
def Inside (s : PyStr) : Prop :=
  Closed s ∧ ∀ p c q, s = p ++ c :: q → 0x80 ≤ c.val → lex .out p = some .str

theorem inside_ascii (s : PyStr) (hclosed : Closed s) (h : isAscii s = true) : Inside s := by
  refine ⟨hclosed, fun p c q hs hc => ?_⟩
  have hascii := List.all_eq_true.mp h c (by rw [hs]; simp)
  simp only [CodePoint.isAscii, decide_eq_true_eq] at hascii
  omega

theorem Inside.append {s t : PyStr} (hs : Inside s) (ht : Inside t) : Inside (s ++ t) := by
  refine ⟨hs.1.append ht.1, fun p c q h hc => ?_⟩
  rcases List.append_eq_append_iff.mp h with ⟨u, rfl, hu⟩ | ⟨u, rfl, hu⟩
  · rw [lex_closed_append _ _ hs.1]
    exact ht.2 u c q hu hc
  · cases u with
    | nil =>
        rw [List.nil_append] at hu
        rw [List.append_nil] at hs
        rw [hs.1]
        exact ht.2 [] c q hu.symm hc
    | cons d u =>
        obtain ⟨rfl, rfl⟩ := List.cons.inj hu
        exact hs.2 p c u rfl hc

theorem escapeChar_self (c : CodePoint) (hc : 0x80 ≤ c.val) : escapeChar false c = [c] := by
  have hshort : ∀ p ∈ shortEscapes, p.1.val < 0x80 := by
    have hall : (shortEscapes.all fun p => p.1.val < 0x80) = true := by decide
    simpa only [List.all_eq_true, decide_eq_true_eq] using hall
  have hnone : shortEscapes.find? (·.1 = c) = none := by
    refine List.find?_eq_none.mpr fun p hp hpc => ?_
    have hlow := hshort p hp
    rw [of_decide_eq_true hpc] at hlow
    omega
  rw [escapeChar, hnone]
  simp only
  rw [if_neg (by omega), if_neg (by simp)]

theorem lex_before (s p q : PyStr) (c : CodePoint) (hc : 0x80 ≤ c.val)
    (h : s.flatMap (escapeChar false) = p ++ c :: q) : lex .str p = some .str := by
  induction s generalizing p with
  | nil =>
      rw [List.flatMap_nil] at h
      exact absurd (congrArg List.length h) (by simp)
  | cons d s ih =>
      rw [List.flatMap_cons] at h
      rcases List.append_eq_append_iff.mp h with ⟨u, rfl, hu⟩ | ⟨u, hd, hu⟩
      · rw [lex_append, lex_escapeChar, Option.bind_some]
        exact ih u hu
      · cases u with
        | nil =>
            rw [List.append_nil] at hd
            rw [← hd]
            exact lex_escapeChar d
        | cons e u =>
            -- the character is in an escape, which is then the character itself
            obtain ⟨rfl, rfl⟩ := List.cons.inj hu
            have hmem : c ∈ escapeChar false d := by rw [hd]; simp
            have heq : d = c := by
              by_contra hne
              refine (escapeChar_chars (· ≠ c) ?_ d).mpr hne c hmem rfl
              rintro x hx rfl
              omega
            rw [heq, escapeChar_self c hc] at hd
            cases p with
            | nil => rfl
            | cons e p => exact absurd (congrArg List.length hd) (by simp)

theorem inside_encodeString (s : PyStr) : Inside (encodeString false s) := by
  refine ⟨closed_encodeString s, fun p c q h hc => ?_⟩
  have hquote : c ≠ cp '"' := by
    rintro rfl
    revert hc
    decide
  rw [encodeString] at h
  cases p with
  | nil => exact absurd (List.cons.inj h).1.symm hquote
  | cons e p =>
      obtain ⟨rfl, hrest⟩ := List.cons.inj h
      change lex .str p = some .str
      rcases List.append_eq_append_iff.mp hrest with ⟨u, rfl, hu⟩ | ⟨u, hbody, hu⟩
      · cases u with
        | nil =>
            rw [List.append_nil]
            exact lex_flatMap s
        | cons d u => exact absurd (congrArg List.length hu) (by simp)
      · cases u with
        | nil => exact absurd (List.cons.inj hu).1 hquote
        | cons d u =>
            obtain ⟨rfl, -⟩ := List.cons.inj hu
            exact lex_before s p u c hc hbody

theorem inside_number (s : PyStr) (n : NumberText) (h : scanNumber s = some (n, [])) : Inside s := by
  refine inside_ascii s (closed_number s n h) (List.all_eq_true.mpr fun c hc => ?_)
  exact decide_eq_true (number_chars (fun c => c.val < 0x80) (fun _ hc => hc) s n h c hc)

theorem inside_encode (st : Style) (hst : st.ensureAscii = false) (limit : Nat) (j : Json) (text : PyStr)
    (h : encode st limit j = .ok text) : Inside text := by
  refine encode_pieces Inside (fun s t hs ht => hs.append ht) ?_ inside_number st ?_ limit j text h
  swap
  · rw [hst]
    exact inside_encodeString
  have hall : ∀ s ∈ pieces, lex .out s = some .out ∧ isAscii s = true := by decide
  exact fun s hs => inside_ascii s (hall s hs).1 (hall s hs).2

-- A text that is cut at a character that is not ASCII cannot be loaded, for the cut
-- is inside a string.
theorem loads_cut (st : Style) (hst : st.ensureAscii = false) (limit limit' : Nat) (j k : Json) (p q : PyStr)
    (c : CodePoint) (hc : 0x80 ≤ c.val) (h : encode st limit j = .ok (p ++ c :: q)) : loads limit' p ≠ .ok k := by
  intro hk
  have hclosed := closed_of_loads limit' p k hk
  rw [Closed, (inside_encode st hst limit j _ h).2 p c q rfl hc] at hclosed
  cases hclosed

end Cut

end V91Core.Json
