import V91Core.Json.RoundTrip
import V91Core.Python.Exc

namespace V91Core.Json

open V91Core.Python

variable (P : CodePoint → Prop)

section Texts

variable (hascii : ∀ c : CodePoint, c.val < 0x80 → P c)

include hascii

theorem ascii_chars (s : PyStr) (h : isAscii s = true) : ∀ c ∈ s, P c := by
  intro c hc
  have := List.all_eq_true.mp h c hc
  exact hascii c (by simpa [CodePoint.isAscii] using this)

theorem number_chars (s : PyStr) (n : NumberText) (h : scanNumber s = some (n, [])) : ∀ c ∈ s, P c := by
  obtain ⟨number, rfl, -, hchars⟩ := scanNumber_chars s [] n h
  rw [List.append_nil]
  intro c hc
  have hnumber := hchars c hc
  simp only [isNumberChar, CodePoint.isDigit, Bool.or_eq_true, Bool.and_eq_true, decide_eq_true_eq] at hnumber
  apply hascii
  rcases hnumber with ((((h | rfl) | rfl) | rfl) | rfl) | rfl
  · omega
  all_goals decide

theorem escapeChar_chars (c : CodePoint) : (∀ d ∈ escapeChar false c, P d) ↔ P c := by
  have hshort : ∀ p ∈ shortEscapes, p.1.val < 0x80 ∧ p.2.val < 0x80 := by
    have hall : (shortEscapes.all fun p => p.1.val < 0x80 ∧ p.2.val < 0x80) = true := by decide
    simpa only [List.all_eq_true, decide_eq_true_eq] using hall
  have hhex : ∀ n : Fin 16, (hexChar n.val).val < 0x80 := by decide
  unfold escapeChar
  cases hf : shortEscapes.find? (·.1 = c) with
  | some p =>
      obtain rfl : p.1 = c := by simpa using List.find?_some hf
      obtain ⟨hfirst, hsecond⟩ := hshort p (List.mem_of_find?_eq_some hf)
      have hslash : P (cp '\\') := hascii _ (by decide)
      simp [hascii _ hfirst, hascii _ hsecond, hslash]
  | none =>
      simp only
      by_cases hc : c.val < 0x20
      · rw [if_pos hc]
        have hdigit : ∀ n, P (hexChar (n % 16)) :=
          fun n => hascii _ (hhex ⟨n % 16, Nat.mod_lt _ (by decide)⟩)
        have hslash : P (cp '\\') := hascii _ (by decide)
        have hu : P (cp 'u') := hascii _ (by decide)
        simp [hex4, hdigit, hslash, hu, hascii c (by omega)]
      · rw [if_neg hc, if_neg (by simp)]
        simp

theorem encodeString_chars (s : PyStr) : (∀ c ∈ encodeString false s, P c) ↔ ∀ c ∈ s, P c := by
  have hquote : P (cp '"') := hascii _ (by decide)
  have hflat : (∀ c ∈ s.flatMap (escapeChar false), P c) ↔ ∀ c ∈ s, P c := by
    simp only [List.mem_flatMap, forall_exists_index, and_imp]
    constructor
    · intro h c hc
      exact (escapeChar_chars P hascii c).mp fun d hd => h d c hc hd
    · intro h d c hc hd
      exact (escapeChar_chars P hascii c).mpr (h c hc) d hd
  rw [encodeString]
  simp only [List.mem_cons, List.mem_append, List.not_mem_nil, or_false]
  constructor
  · intro h
    exact hflat.mp fun c hc => h c (.inr (.inl hc))
  · rintro h c (rfl | hc | rfl)
    · exact hquote
    · exact hflat.mpr h c hc
    · exact hquote

omit hascii in
theorem joinWith_chars (sep : PyStr) (hsep : ∀ c ∈ sep, P c) (texts : List PyStr) :
    (∀ c ∈ joinWith sep texts, P c) ↔ ∀ t ∈ texts, ∀ c ∈ t, P c := by
  induction texts with
  | nil => simp [joinWith]
  | cons t texts ih =>
      cases texts with
      | nil => simp [joinWith]
      | cons u texts =>
          rw [joinWith, List.forall_mem_cons, ← ih]
          simp only [List.mem_append]
          constructor
          · intro h
            exact ⟨fun c hc => h c (.inl (.inl hc)), fun c hc => h c (.inr hc)⟩
          · rintro ⟨ht, hrest⟩ c ((hc | hc) | hc)
            · exact ht c hc
            · exact hsep c hc
            · exact hrest c hc

theorem wrap_chars (a b : CodePoint) (ha : a.val < 0x80) (hb : b.val < 0x80) (s : PyStr) :
    (∀ c ∈ a :: (s ++ [b]), P c) ↔ ∀ c ∈ s, P c := by
  simp only [List.mem_cons, List.mem_append, List.not_mem_nil, or_false]
  constructor
  · exact fun h c hc => h c (.inr (.inl hc))
  · rintro h c (rfl | hc | rfl)
    · exact hascii _ ha
    · exact h c hc
    · exact hascii _ hb

-- A property of all ASCII characters holds throughout the text of a value if it holds throughout the texts
-- of its strings.
theorem encode_chars_iff (st : Style) (Q : CodePoint → Prop)
    (hstring : ∀ s, (∀ c ∈ encodeString st.ensureAscii s, P c) ↔ ∀ c ∈ s, Q c) (limit : Nat) (j : Json) (text : PyStr)
    (h : encode st limit j = .ok text) : (∀ c ∈ text, P c) ↔ AllChars Q j := by
  have hitem : ∀ c ∈ st.itemSep, P c := by
    unfold Style.itemSep
    split <;> exact ascii_chars P hascii _ (by decide)
  have hkey : ∀ c ∈ st.keySep, P c := by
    unfold Style.keySep
    split <;> exact ascii_chars P hascii _ (by decide)
  induction j using ind generalizing limit text with
  | null =>
      obtain rfl := Except.ok.inj h
      exact iff_of_true (ascii_chars P hascii _ (by decide)) trivial
  | bool b =>
      cases b <;> obtain rfl := Except.ok.inj h
      · exact iff_of_true (ascii_chars P hascii _ (by decide)) trivial
      · exact iff_of_true (ascii_chars P hascii _ (by decide)) trivial
  | int n =>
      rw [encode] at h
      split at h
      · obtain rfl := Except.ok.inj h
        have hscan := scanNumber_intText n [] trivial
        rw [List.append_nil] at hscan
        exact iff_of_true (number_chars P hascii _ _ hscan) trivial
      · cases h
  | float x =>
      rw [encode] at h
      split at h
      · obtain rfl := Except.ok.inj h
        refine iff_of_true ?_ trivial
        unfold floatText
        split
        · rename_i d hd
          obtain ⟨n, hscan, -⟩ := finiteRepr_scan x d hd
          exact number_chars P hascii _ n hscan
        · split <;> exact ascii_chars P hascii _ (by decide)
      · cases h
  | str s =>
      obtain rfl := Except.ok.inj h
      rw [AllChars]
      exact hstring s
  | arr items ih =>
      cases limit with
      | zero => cases h
      | succ limit =>
          rw [encode, encodeItems_eq] at h
          obtain ⟨texts, htexts, rfl⟩ := map_eq_ok _ _ _ h
          rw [sequence_eq_ok_iff] at htexts
          rw [wrap_chars P hascii _ _ (by decide) (by decide), joinWith_chars P _ hitem, AllChars, allCharsItems_iff]
          constructor
          · intro hall j hj
            have hmem : encode st limit j ∈ texts.map Except.ok := htexts ▸ List.mem_map_of_mem hj
            obtain ⟨t, ht, hjt⟩ := List.mem_map.mp hmem
            exact (ih j hj limit t hjt.symm).mp (hall t ht)
          · intro hall t ht
            have hmem : Except.ok t ∈ items.map (encode st limit) := htexts ▸ List.mem_map_of_mem ht
            obtain ⟨j, hj, hjt⟩ := List.mem_map.mp hmem
            exact (ih j hj limit t hjt).mpr (hall j hj)
  | obj fields ih =>
      cases limit with
      | zero => cases h
      | succ limit =>
          rw [encode, encodeFields_eq] at h
          obtain ⟨texts, htexts, rfl⟩ := map_eq_ok _ _ _ h
          rw [sequence_eq_ok_iff] at htexts
          rw [wrap_chars P hascii _ _ (by decide) (by decide), joinWith_chars P _ hitem, AllChars, allCharsFields_iff]
          have hentries : ∀ entry, entry ∈ (if st.sortKeys then
              sortKeys (fields.map fun f => (f.1, encode st limit f.2))
              else fields.map fun f => (f.1, encode st limit f.2)) ↔
              entry ∈ fields.map fun f => (f.1, encode st limit f.2) := by
            intro entry
            split
            · exact (sortKeys_perm _).mem_iff
            · exact Iff.rfl
          have hfield : ∀ f ∈ fields, ∀ v, encode st limit f.2 = .ok v →
              ((∀ c ∈ encodeString st.ensureAscii f.1 ++ st.keySep ++ v, P c) ↔
                (∀ c ∈ f.1, Q c) ∧ AllChars Q f.2) := by
            intro f hf v hv
            simp only [List.mem_append, or_imp, forall_and, ih f hf limit v hv, hstring f.1]
            exact ⟨fun h => ⟨h.1.1, h.2⟩, fun h => ⟨⟨h.1, hkey⟩, h.2⟩⟩
          constructor
          · intro hall f hf
            have hmem : fieldText st (f.1, encode st limit f.2) ∈ texts.map Except.ok := by
              rw [← htexts]
              exact List.mem_map_of_mem ((hentries _).mpr (List.mem_map_of_mem hf))
            obtain ⟨t, ht, hft⟩ := List.mem_map.mp hmem
            obtain ⟨v, hv, rfl⟩ := map_eq_ok _ _ _ hft.symm
            exact (hfield f hf v hv).mp (hall _ ht)
          · intro hall t ht
            have hmem : Except.ok t ∈ _ := htexts ▸ List.mem_map_of_mem (f := Except.ok) ht
            obtain ⟨entry, hentry, hft⟩ := List.mem_map.mp hmem
            obtain ⟨f, hf, rfl⟩ := List.mem_map.mp ((hentries _).mp hentry)
            obtain ⟨v, hv, rfl⟩ := map_eq_ok _ _ _ hft
            exact (hfield f hf v hv).mpr (hall f hf)

theorem encode_chars (st : Style) (hst : st.ensureAscii = false) (limit : Nat) (j : Json) (text : PyStr)
    (h : encode st limit j = .ok text) : (∀ c ∈ text, P c) ↔ AllChars P j :=
  encode_chars_iff P hascii st P (fun s => by rw [hst]; exact encodeString_chars P hascii s) limit j text h

theorem escapeChar_true_chars (c : CodePoint) : ∀ d ∈ escapeChar true c, P d := by
  have hhex : ∀ n : Fin 16, (hexChar n.val).val < 0x80 := by decide
  have hdigit : ∀ n, P (hexChar (n % 16)) := fun n => hascii _ (hhex ⟨n % 16, Nat.mod_lt _ (by decide)⟩)
  have hhex4 : ∀ n, ∀ d ∈ hex4 n, P d := by
    intro n
    have hslash : P (cp '\\') := hascii _ (by decide)
    have hu : P (cp 'u') := hascii _ (by decide)
    simp [hex4, hdigit, hslash, hu]
  by_cases hc : c.val < 0x80
  · rcases escapeChar_ascii c with heq | ⟨-, heq⟩ | ⟨hplane, -⟩
    · rw [heq]
      exact (escapeChar_chars P hascii c).mpr (hascii c hc)
    · rw [heq]
      exact hhex4 c.val
    · omega
  · have hnone : shortEscapes.find? (·.1 = c) = none := by
      have hall : (shortEscapes.all fun p => p.1.val < 0x80) = true := by decide
      refine List.find?_eq_none.mpr fun p hp heq => hc ?_
      have heq : p.1 = c := of_decide_eq_true heq
      rw [← heq]
      exact of_decide_eq_true (List.all_eq_true.mp hall p hp)
    unfold escapeChar
    rw [hnone]
    dsimp only
    rw [if_neg (by omega), if_pos ⟨rfl, by omega⟩]
    split
    · exact hhex4 _
    · exact List.forall_mem_append.mpr ⟨hhex4 _, hhex4 _⟩

omit hascii in
theorem allChars_true (j : Json) : AllChars (fun _ => True) j := by
  induction j using ind with
  | arr items ih => exact (allCharsItems_iff _ _).mpr ih
  | obj fields ih => exact (allCharsFields_iff _ _).mpr fun f hf => ⟨fun _ _ => trivial, ih f hf⟩
  | str s => exact fun _ _ => trivial
  | _ => trivial

-- `ensure_ascii` leaves nothing else in the text.
theorem encode_ascii_chars (st : Style) (hst : st.ensureAscii = true) (limit : Nat) (j : Json) (text : PyStr)
    (h : encode st limit j = .ok text) : ∀ c ∈ text, P c := by
  have hquote : P (cp '"') := hascii _ (by decide)
  have hstring : ∀ s, (∀ c ∈ encodeString st.ensureAscii s, P c) ↔ ∀ c ∈ s, True := by
    intro s
    refine iff_of_true ?_ fun _ _ => trivial
    rw [hst, encodeString]
    refine List.forall_mem_cons.mpr ⟨hquote, List.forall_mem_append.mpr ⟨?_, List.forall_mem_singleton.mpr hquote⟩⟩
    intro d hd
    obtain ⟨c, -, hc⟩ := List.mem_flatMap.mp hd
    exact escapeChar_true_chars P hascii c d hc
  exact (encode_chars_iff P hascii st (fun _ => True) hstring limit j text h).mpr (allChars_true j)

end Texts

-- The characters that are written as they are with `ensure_ascii` too.
abbrev Printable (c : CodePoint) : Prop := 0x20 ≤ c.val ∧ c.val < 0x7F

theorem encodeString_printable (s : PyStr) (h : ∀ c ∈ s, Printable c) :
    encodeString true s = encodeString false s := by
  have hchar : ∀ c ∈ s, escapeChar true c = escapeChar false c := by
    intro c hc
    have := h c hc
    unfold escapeChar
    split
    · rfl
    · rw [if_neg (by omega), if_neg (by omega), if_neg (by omega), if_neg (by simp)]
  have hflat : s.flatMap (escapeChar true) = s.flatMap (escapeChar false) := by
    rw [List.flatMap_def, List.flatMap_def, List.map_congr_left hchar]
  rw [encodeString, encodeString, hflat]

-- `ensure_ascii` makes no difference to a value with printable strings.
theorem encode_printable_strings (st : Style) (limit : Nat) (j : Json) (h : AllChars Printable j) :
    encode st limit j = encode { st with ensureAscii := false } limit j := by
  induction j using ind generalizing limit with
  | bool b => cases b <;> rfl
  | str s =>
      simp only [encode]
      cases hst : st.ensureAscii with
      | false => rfl
      | true => rw [encodeString_printable s h]
  | arr items ih =>
      cases limit with
      | zero => rfl
      | succ limit =>
          have hitems : items.map (encode st limit) = items.map (encode { st with ensureAscii := false } limit) :=
            List.map_congr_left fun j hj => ih j hj limit ((allCharsItems_iff _ _).mp h j hj)
          simp only [encode, encodeItems_eq, hitems]
          rfl
  | obj fields ih =>
      cases limit with
      | zero => rfl
      | succ limit =>
          have hchars := (allCharsFields_iff _ _).mp h
          have hfields : fields.map (fun f => (f.1, encode st limit f.2)) =
              fields.map fun f => (f.1, encode { st with ensureAscii := false } limit f.2) :=
            List.map_congr_left fun f hf => by rw [ih f hf limit (hchars f hf).2]
          have hentries : ∀ entry ∈ (if st.sortKeys then
              sortKeys (fields.map fun f => (f.1, encode { st with ensureAscii := false } limit f.2))
              else fields.map fun f => (f.1, encode { st with ensureAscii := false } limit f.2)),
              fieldText st entry = fieldText { st with ensureAscii := false } entry := by
            intro entry hentry
            have hmem : entry ∈ fields.map fun f => (f.1, encode { st with ensureAscii := false } limit f.2) := by
              split at hentry
              · exact (sortKeys_perm _).mem_iff.mp hentry
              · exact hentry
            obtain ⟨f, hf, rfl⟩ := List.mem_map.mp hmem
            simp only [fieldText]
            cases hst : st.ensureAscii with
            | false => rfl
            | true => rw [encodeString_printable f.1 (hchars f hf).1]; rfl
          simp only [encode, encodeFields_eq, hfields, List.map_congr_left hentries]
          rfl
  | _ => rfl

-- `json.dumps(value, ensure_ascii=False).encode("utf-8")` returns when the value
-- can be encoded and has no lone surrogate in it.
theorem dumps_utf8_isOk (rt : Runtime) (st : Style) (hst : st.ensureAscii = false) (j : Json) :
    (∃ bs, (dumps rt st j >>= encodeUtf8) = .ok bs) ↔
      Fits st.allowNan rt.nesting j ∧ AllChars (fun c => c.isSurrogate = false) j := by
  have hascii := isSurrogate_of_ascii
  rw [← encode_isOk_iff]
  constructor
  · rintro ⟨bs, h⟩
    obtain ⟨text, htext, hbs⟩ := (bind_eq_ok _ _ _).mp h
    rw [dumps_eq_ok] at htext
    rw [encodeUtf8_eq_ok] at hbs
    refine ⟨⟨text, htext⟩, ?_⟩
    rw [← encode_chars _ hascii st hst _ _ text htext, ← utf8Encode_isSome, hbs]
    rfl
  · rintro ⟨⟨text, htext⟩, hchars⟩
    rw [← encode_chars _ hascii st hst _ _ text htext, ← utf8Encode_isSome] at hchars
    obtain ⟨bs, hbs⟩ := Option.isSome_iff_exists.mp hchars
    refine ⟨bs, (bind_eq_ok _ _ _).mpr ⟨text, (dumps_eq_ok _ _ _ _).mpr htext, ?_⟩⟩
    exact (encodeUtf8_eq_ok _ _).mpr hbs

theorem norm_order (st : Style) (j : Json) : norm (order st j) = norm j := by
  unfold order
  split
  · exact norm_norm j
  · rfl

-- A dict that is dumped and loaded again is the same up to the order of its keys.
theorem loads_dumps (rt : Runtime) (st : Style) (document : Dict)
    (hchars : AllChars (fun c => c.isSurrogate = false) document.json) (text : PyStr)
    (hdumps : dumps rt st document.json = .ok text) :
    ∃ loaded : Dict, loadsText rt text = .ok loaded.json ∧ loaded.json = order st document.json := by
  rw [dumps_eq_ok] at hdumps
  have hescapable : AllChars (Escapable st.ensureAscii) document.json :=
    AllChars.mono (fun c hc _ => hc) _ hchars
  have hloads := loads_escapable st rt.nesting _ hescapable document.wf text [] [] hdumps (by simp) (by simp)
  rw [List.nil_append, List.append_nil] at hloads
  by_cases hsorted : st.sortKeys = true
  · rw [order, if_pos hsorted] at hloads ⊢
    exact ⟨⟨_, wf_norm _ document.wf⟩, (loadsText_eq_ok _ _ _).mpr hloads, rfl⟩
  · rw [order, if_neg hsorted] at hloads ⊢
    exact ⟨document, (loadsText_eq_ok _ _ _).mpr hloads, rfl⟩

end V91Core.Json
