import V91Core.Json.Encode

namespace V91Core.Json

open V91Core.Python

-- `unreadable msg left` is a `JSONDecodeError` with `left` characters still unread.
-- `stuck` marks an exhausted loop bound and is never returned.
inductive DecodeError where
  | unreadable (msg : String) (left : Nat)
  | tooManyDigits
  | recursion
  | stuck
deriving DecidableEq

abbrev Scan (α : Type) := Except DecodeError (α × PyStr)

def isWs (c : CodePoint) : Bool := c = cp ' ' || c = cp '\t' || c = cp '\n' || c = cp '\r'

def skipWs (s : PyStr) : PyStr := s.dropWhile isWs

def hexValue (c : CodePoint) : Option Nat :=
  if c.isDigit then some (c.val - 0x30)
  else if 0x41 ≤ c.val ∧ c.val ≤ 0x46 then some (c.val - 0x37)
  else if 0x61 ≤ c.val ∧ c.val ≤ 0x66 then some (c.val - 0x57)
  else none

def scanHex4 : PyStr → Option (Nat × PyStr)
  | a :: b :: c :: d :: rest =>
      match hexValue a, hexValue b, hexValue c, hexValue d with
      | some a, some b, some c, some d => some (4096 * a + 256 * b + 16 * c + d, rest)
      | _, _, _, _ => none
  | _ => none

-- The text after `\u`. A high surrogate takes a low one that follows it.
def scanUnicode (s : PyStr) : Scan CodePoint :=
  if s.length < 5 then .error (.unreadable "Invalid \\uXXXX escape" (s.length + 1))
  else match scanHex4 s with
    | none => .error (.unreadable "Invalid \\uXXXX escape" (s.length + 1))
    | some (u, rest) =>
        if 0xD800 ≤ u ∧ u < 0xDC00 ∧ 7 ≤ rest.length ∧ rest.take 2 = [cp '\\', cp 'u'] then
          match scanHex4 (rest.drop 2) with
          | none => .error (.unreadable "Invalid \\uXXXX escape" (rest.length - 1))
          | some (v, after) =>
              if 0xDC00 ≤ v ∧ v < 0xE000 then
                .ok (chr (0x10000 + (u - 0xD800) * 1024 + (v - 0xDC00)), after)
              else .ok (chr u, rest)
        else .ok (chr u, rest)

def simpleEscape (c : CodePoint) : Option CodePoint :=
  if c = cp '"' ∨ c = cp '\\' ∨ c = cp '/' then some c
  else if c = cp 'b' then some (chr 0x08)
  else if c = cp 'f' then some (chr 0x0C)
  else if c = cp 'n' then some (cp '\n')
  else if c = cp 'r' then some (cp '\r')
  else if c = cp 't' then some (cp '\t')
  else none

-- The text after a backslash. `start` counts the characters from the opening
-- quote on.
def scanEscape (start : Nat) : PyStr → Scan CodePoint
  | [] => .error (.unreadable "Unterminated string starting at" start)
  | c :: rest =>
      if c = cp 'u' then scanUnicode rest
      else match simpleEscape c with
        | some u => .ok (u, rest)
        | none => .error (.unreadable "Invalid \\escape" (rest.length + 2))

def scanChars (start : Nat) : Nat → PyStr → Scan PyStr
  | 0, _ => .error .stuck
  | _ + 1, [] => .error (.unreadable "Unterminated string starting at" start)
  | bound + 1, c :: rest =>
      if c = cp '"' then .ok ([], rest)
      else if c = cp '\\' then
        match scanEscape start rest with
        | .error e => .error e
        | .ok (u, rest) =>
            match scanChars start bound rest with
            | .error e => .error e
            | .ok (s, rest) => .ok (u :: s, rest)
      else if c.val < 0x20 then .error (.unreadable "Invalid control character at" (rest.length + 1))
      else
        match scanChars start bound rest with
        | .error e => .error e
        | .ok (s, rest) => .ok (c :: s, rest)

-- The text after the opening quote.
def scanString (s : PyStr) : Scan PyStr := scanChars (s.length + 1) (s.length + 1) s

-- The rest of a list whose items are separated by commas, up to `close`.
def parseList (item : PyStr → Scan α) (close : CodePoint) : Nat → PyStr → Scan (List α)
  | 0, _ => .error .stuck
  | bound + 1, s =>
      match item s with
      | .error e => .error e
      | .ok (a, rest) =>
          match skipWs rest with
          | [] => .error (.unreadable "Expecting ',' delimiter" 0)
          | c :: rest =>
              if c = close then .ok ([a], rest)
              else if c = cp ',' then
                match parseList item close bound (skipWs rest) with
                | .error e => .error e
                | .ok (as, rest) => .ok (a :: as, rest)
              else .error (.unreadable "Expecting ',' delimiter" (rest.length + 1))

-- The text after `[`.
def parseArray (value : PyStr → Scan Json) (s : PyStr) : Scan Json :=
  if (skipWs s).head? = some (cp ']') then .ok (.arr [], (skipWs s).tail)
  else match parseList value (cp ']') (s.length + 1) (skipWs s) with
    | .error e => .error e
    | .ok (items, rest) => .ok (.arr items, rest)

def parseMember (value : PyStr → Scan Json) : PyStr → Scan (PyStr × Json)
  | [] => .error (.unreadable "Expecting property name enclosed in double quotes" 0)
  | c :: rest =>
      if c = cp '"' then
        match scanString rest with
        | .error e => .error e
        | .ok (key, rest) =>
            match skipWs rest with
            | [] => .error (.unreadable "Expecting ':' delimiter" 0)
            | c :: rest =>
                if c = cp ':' then
                  match value (skipWs rest) with
                  | .error e => .error e
                  | .ok (j, rest) => .ok ((key, j), rest)
                else .error (.unreadable "Expecting ':' delimiter" (rest.length + 1))
      else .error (.unreadable "Expecting property name enclosed in double quotes" (rest.length + 1))

-- The text after `{`. A repeated key keeps its last value.
def parseObject (value : PyStr → Scan Json) (s : PyStr) : Scan Json :=
  if (skipWs s).head? = some (cp '}') then .ok (.obj [], (skipWs s).tail)
  else match parseList (parseMember value) (cp '}') (s.length + 1) (skipWs s) with
    | .error e => .error e
    | .ok (members, rest) => .ok (.obj (dictOf members), rest)

def literals : List (PyStr × Json) :=
  [(py "null", .null), (py "true", .bool true), (py "false", .bool false),
    (py "NaN", .float (.ofModel (.pack .notANumber))),
    (py "Infinity", .float (.ofModel (.pack (.infinity .positive)))),
    (py "-Infinity", .float (.ofModel (.pack (.infinity .negative))))]

def parseLiteral (s : PyStr) : Option (Json × PyStr) :=
  literals.findSome? fun l => if s.take l.1.length = l.1 then some (l.2, s.drop l.1.length) else none

def parseNumber (s : PyStr) : Scan Json :=
  match scanNumber s with
  | none => .error (.unreadable "Expecting value" s.length)
  | some (n, rest) =>
      if n.isInt then
        if n.whole.length ≤ maxIntDigits then .ok (.int n.toInt, rest) else .error .tooManyDigits
      else .ok (.float n.toFloat, rest)

-- `scan_once`, with the scanner for nested containers when there is room for one.
def parseStep (nested : Option (PyStr → Scan Json)) : PyStr → Scan Json
  | [] => .error (.unreadable "Expecting value" 0)
  | c :: rest =>
      if c = cp '"' then
        match scanString rest with
        | .error e => .error e
        | .ok (t, rest) => .ok (.str t, rest)
      else if c = cp '{' then
        match nested with
        | none => .error .recursion
        | some value => parseObject value rest
      else if c = cp '[' then
        match nested with
        | none => .error .recursion
        | some value => parseArray value rest
      else match parseLiteral (c :: rest) with
        | some found => .ok found
        | none => parseNumber (c :: rest)

def parseValue : Nat → PyStr → Scan Json
  | 0 => parseStep none
  | limit + 1 => parseStep (some (parseValue limit))

-- `json.loads` of a `str`.
def loads (limit : Nat) (s : PyStr) : Except DecodeError Json :=
  if s.head? = some (chr 0xFEFF) then
    .error (.unreadable "Unexpected UTF-8 BOM (decode using utf-8-sig)" s.length)
  else match parseValue limit (skipWs s) with
    | .error e => .error e
    | .ok (j, rest) =>
        if skipWs rest = [] then .ok j else .error (.unreadable "Extra data" (skipWs rest).length)

section Sound

-- A scan that succeeds reads at least one character, and the loop bound is
-- never the reason for a failure.
def Sound (s : PyStr) (P : α → Prop) : Scan α → Prop
  | .ok (a, rest) => rest.length < s.length ∧ P a
  | .error e => e ≠ .stuck

theorem skipWs_length (s : PyStr) : (skipWs s).length ≤ s.length :=
  (List.dropWhile_suffix _).length_le

theorem scanHex4_length (s rest : PyStr) (n : Nat) (h : scanHex4 s = some (n, rest)) :
    rest.length + 4 = s.length := by
  unfold scanHex4 at h
  split at h
  · split at h
    · obtain ⟨-, rfl⟩ := by simpa using h
      rfl
    · cases h
  · cases h

theorem scanUnicode_sound (s : PyStr) : Sound s (fun _ => True) (scanUnicode s) := by
  unfold scanUnicode
  split
  · simp [Sound]
  · split
    · simp [Sound]
    · rename_i u rest hu
      have hrest := scanHex4_length s rest u hu
      split
      · rename_i hpair
        split
        · simp [Sound]
        · rename_i v after hv
          have hafter := scanHex4_length _ after v hv
          rw [List.length_drop] at hafter
          split
          · exact ⟨by omega, trivial⟩
          · exact ⟨by omega, trivial⟩
      · exact ⟨by omega, trivial⟩

theorem scanEscape_sound (start : Nat) (s : PyStr) :
    Sound s (fun _ => True) (scanEscape start s) := by
  cases s with
  | nil => simp [scanEscape, Sound]
  | cons c rest =>
      simp only [scanEscape]
      split
      · have h := scanUnicode_sound rest
        cases hu : scanUnicode rest with
        | error e =>
            rw [hu] at h
            exact h
        | ok pair =>
            rw [hu] at h
            exact ⟨Nat.lt_succ_of_lt h.1, trivial⟩
      · split
        · exact ⟨Nat.lt_succ_self _, trivial⟩
        · simp [Sound]

theorem scanChars_sound (start bound : Nat) (s : PyStr) (hbound : s.length < bound) :
    Sound s (fun _ => True) (scanChars start bound s) := by
  induction bound generalizing s with
  | zero => omega
  | succ bound ih =>
      cases s with
      | nil => simp [scanChars, Sound]
      | cons c rest =>
          rw [List.length_cons] at hbound
          simp only [scanChars]
          split
          · exact ⟨Nat.lt_succ_self _, trivial⟩
          split
          · have he := scanEscape_sound start rest
            cases hu : scanEscape start rest with
            | error e =>
                rw [hu] at he
                exact he
            | ok pair =>
                rw [hu] at he
                have h := ih pair.2 (by have := he.1; omega)
                cases hc : scanChars start bound pair.2 with
                | error e =>
                    rw [hc] at h
                    simp only [hc]
                    exact h
                | ok tail =>
                    rw [hc] at h
                    simp only [hc]
                    exact ⟨by have := he.1; have := h.1; simp only [List.length_cons]; omega, trivial⟩
          split
          · simp [Sound]
          · have h := ih rest (by omega)
            cases hc : scanChars start bound rest with
            | error e =>
                rw [hc] at h
                exact h
            | ok tail =>
                rw [hc] at h
                exact ⟨Nat.lt_succ_of_lt h.1, trivial⟩

theorem scanString_sound (s : PyStr) : Sound s (fun _ => True) (scanString s) :=
  scanChars_sound _ _ s (Nat.lt_succ_self _)

theorem parseList_sound (item : PyStr → Scan α) (close : CodePoint) (P : α → Prop)
    (hitem : ∀ s, Sound s P (item s)) (bound : Nat) (s : PyStr) (hbound : s.length < bound) :
    Sound s (fun as => ∀ a ∈ as, P a) (parseList item close bound s) := by
  induction bound generalizing s with
  | zero => omega
  | succ bound ih =>
      have hv := hitem s
      simp only [parseList]
      cases hj : item s with
      | error e =>
          rw [hj] at hv
          exact hv
      | ok pair =>
          obtain ⟨a, rest⟩ := pair
          rw [hj] at hv
          have hws := skipWs_length rest
          simp only
          cases hrest : skipWs rest with
          | nil => simp [Sound]
          | cons c rest' =>
              rw [hrest, List.length_cons] at hws
              have hlen := hv.1
              simp only
              split
              · exact ⟨by omega, by simpa using hv.2⟩
              split
              · have hws' := skipWs_length rest'
                have h := ih (skipWs rest') (by omega)
                cases hi : parseList item close bound (skipWs rest') with
                | error e =>
                    rw [hi] at h
                    exact h
                | ok tail =>
                    rw [hi] at h
                    have hlen' := h.1
                    exact ⟨by omega, List.forall_mem_cons.mpr ⟨hv.2, h.2⟩⟩
              · simp [Sound]

theorem parseMember_sound (value : PyStr → Scan Json) (P : Json → Prop)
    (hvalue : ∀ s, Sound s P (value s)) (s : PyStr) :
    Sound s (fun member => P member.2) (parseMember value s) := by
  cases s with
  | nil => simp [parseMember, Sound]
  | cons c rest =>
      simp only [parseMember]
      split
      · have hs := scanString_sound rest
        cases hk : scanString rest with
        | error e =>
            rw [hk] at hs
            exact hs
        | ok pair =>
            obtain ⟨key, rest₁⟩ := pair
            rw [hk] at hs
            have hws := skipWs_length rest₁
            have hlen := hs.1
            simp only
            cases hrest : skipWs rest₁ with
            | nil => simp [Sound]
            | cons d rest₂ =>
                rw [hrest, List.length_cons] at hws
                simp only
                split
                · have hws' := skipWs_length rest₂
                  have hv := hvalue (skipWs rest₂)
                  cases hj : value (skipWs rest₂) with
                  | error e =>
                      rw [hj] at hv
                      exact hv
                  | ok found =>
                      rw [hj] at hv
                      have hlen' := hv.1
                      exact ⟨by simp only [List.length_cons]; omega, hv.2⟩
                · simp [Sound]
      · simp [Sound]

theorem length_tail_skipWs (s : PyStr) (c : CodePoint) (h : (skipWs s).head? = some c) :
    (skipWs s).tail.length < s.length := by
  obtain ⟨t, ht⟩ := List.head?_eq_some_iff.mp h
  have := skipWs_length s
  rw [ht, List.length_cons] at this
  rw [ht, List.tail_cons]
  omega

theorem parseArray_sound (value : PyStr → Scan Json) (limit : Nat)
    (hvalue : ∀ s, Sound s (fun j => Wf j ∧ Fits true limit j) (value s)) (s : PyStr) :
    Sound s (fun j => Wf j ∧ Fits true (limit + 1) j) (parseArray value s) := by
  unfold parseArray
  split
  · rename_i hend
    exact ⟨length_tail_skipWs s _ hend, by simp [Wf, Fits]⟩
  · have hws := skipWs_length s
    have h := parseList_sound value (cp ']') _ hvalue (s.length + 1) (skipWs s) (by omega)
    cases hi : parseList value (cp ']') (s.length + 1) (skipWs s) with
    | error e =>
        rw [hi] at h
        exact h
    | ok pair =>
        rw [hi] at h
        have hlen := h.1
        refine ⟨by omega, ?_⟩
        simp only [Wf, Fits, wfItems_iff, fitsItems_iff, Nat.add_sub_cancel]
        exact ⟨fun j hj => (h.2 j hj).1, Nat.succ_pos _, fun j hj => (h.2 j hj).2⟩

theorem parseObject_sound (value : PyStr → Scan Json) (limit : Nat)
    (hvalue : ∀ s, Sound s (fun j => Wf j ∧ Fits true limit j) (value s)) (s : PyStr) :
    Sound s (fun j => Wf j ∧ Fits true (limit + 1) j) (parseObject value s) := by
  unfold parseObject
  split
  · rename_i hend
    exact ⟨length_tail_skipWs s _ hend, by simp [Wf, Fits]⟩
  · have hws := skipWs_length s
    have h := parseList_sound (parseMember value) (cp '}') _ (parseMember_sound value _ hvalue)
      (s.length + 1) (skipWs s) (by omega)
    cases hi : parseList (parseMember value) (cp '}') (s.length + 1) (skipWs s) with
    | error e =>
        rw [hi] at h
        exact h
    | ok pair =>
        rw [hi] at h
        have hlen := h.1
        obtain ⟨hnodup, hmem⟩ := dictOf_spec pair.1
        refine ⟨by omega, ?_⟩
        simp only [Wf, Fits, wfFields_iff, fitsFields_iff, Nat.add_sub_cancel]
        exact ⟨⟨hnodup, fun f hf => (h.2 f (hmem f hf)).1⟩, Nat.succ_pos _,
          fun f hf => (h.2 f (hmem f hf)).2⟩

theorem parseLiteral_sound (limit : Nat) (s rest : PyStr) (j : Json)
    (h : parseLiteral s = some (j, rest)) :
    rest.length < s.length ∧ Wf j ∧ Fits true limit j := by
  obtain ⟨l, hl, hfound⟩ := List.exists_of_findSome?_eq_some h
  have hall : ∀ l ∈ literals, 0 < l.1.length ∧ Wf l.2 ∧ Fits true limit l.2 := by
    simp [literals, py, Wf, Fits]
  split at hfound
  · rename_i htake
    obtain ⟨rfl, rfl⟩ := Prod.mk.inj (Option.some.inj hfound)
    obtain ⟨hpos, hwf⟩ := hall l hl
    have hlen := congrArg List.length htake
    rw [List.length_take] at hlen
    rw [List.length_drop]
    exact ⟨by omega, hwf⟩
  · cases hfound

theorem parseNumber_sound (limit : Nat) (s : PyStr) :
    Sound s (fun j => Wf j ∧ Fits true limit j) (parseNumber s) := by
  unfold parseNumber
  cases hn : scanNumber s with
  | none => simp [Sound]
  | some pair =>
      obtain ⟨n, rest⟩ := pair
      obtain ⟨number, rfl, hne, -⟩ := scanNumber_chars s rest n hn
      have hpos := List.length_pos_of_ne_nil hne
      have hlen : rest.length < (number ++ rest).length := by
        rw [List.length_append]
        omega
      obtain ⟨hwhole, hdigits⟩ := scanNumber_whole _ rest n hn
      simp only
      split
      · split
        · refine ⟨hlen, trivial, ?_⟩
          rw [Fits, NumberText.natAbs_toInt]
          exact Nat.le_trans (natText_length_le n.whole hwhole hdigits) ‹_›
        · simp [Sound]
      · exact ⟨hlen, trivial, .inl rfl⟩

theorem parseStep_sound (limit : Nat) (nested : Option (PyStr → Scan Json))
    (hnested : ∀ value, nested = some value → ∃ inner, limit = inner + 1 ∧
      ∀ s, Sound s (fun j => Wf j ∧ Fits true inner j) (value s)) (s : PyStr) :
    Sound s (fun j => Wf j ∧ Fits true limit j) (parseStep nested s) := by
  -- what is read after the first character is shorter than the whole
  have hcons : ∀ (c : CodePoint) (rest : PyStr) (r : Scan Json),
      Sound rest (fun j => Wf j ∧ Fits true limit j) r →
        Sound (c :: rest) (fun j => Wf j ∧ Fits true limit j) r := by
    intro c rest r hr
    cases r with
    | error e => exact hr
    | ok pair => exact ⟨Nat.lt_succ_of_lt hr.1, hr.2⟩
  cases s with
  | nil => simp [parseStep, Sound]
  | cons c rest =>
      simp only [parseStep]
      split
      · have h := scanString_sound rest
        cases hs : scanString rest with
        | error e =>
            rw [hs] at h
            exact h
        | ok pair =>
            rw [hs] at h
            exact ⟨Nat.lt_succ_of_lt h.1, trivial, trivial⟩
      split
      · cases nested with
        | none => simp [Sound]
        | some value =>
            obtain ⟨inner, rfl, hvalue⟩ := hnested value rfl
            exact hcons c rest _ (parseObject_sound value inner hvalue rest)
      split
      · cases nested with
        | none => simp [Sound]
        | some value =>
            obtain ⟨inner, rfl, hvalue⟩ := hnested value rfl
            exact hcons c rest _ (parseArray_sound value inner hvalue rest)
      · cases hl : parseLiteral (c :: rest) with
        | some found => exact parseLiteral_sound limit (c :: rest) found.2 found.1 hl
        | none => exact parseNumber_sound limit (c :: rest)

theorem parseValue_sound (limit : Nat) (s : PyStr) :
    Sound s (fun j => Wf j ∧ Fits true limit j) (parseValue limit s) := by
  induction limit generalizing s with
  | zero => exact parseStep_sound 0 none (by simp) s
  | succ limit ih =>
      refine parseStep_sound (limit + 1) _ (fun value hvalue => ?_) s
      obtain rfl := Option.some.inj hvalue
      exact ⟨limit, rfl, ih⟩

-- A decoded value has unique keys and fits into the limit it was read with.
theorem loads_sound (limit : Nat) (s : PyStr) (j : Json) (h : loads limit s = .ok j) :
    Wf j ∧ Fits true limit j := by
  have hv := parseValue_sound limit (skipWs s)
  unfold loads at h
  split at h
  · cases h
  · split at h
    · cases h
    · rename_i found rest hf
      rw [hf] at hv
      split at h
      · obtain rfl := Except.ok.inj h
        exact hv.2
      · cases h

theorem loads_ne_stuck (limit : Nat) (s : PyStr) : loads limit s ≠ .error .stuck := by
  have hv := parseValue_sound limit (skipWs s)
  unfold loads
  split
  · simp
  · split
    · rename_i e he
      rw [he] at hv
      simpa [Sound] using hv
    · split <;> simp

end Sound

end V91Core.Json
