import V91Core.Json.Chars
import V91Core.Json.Loads
import V91Core.Json.Reread

namespace V91Core.Json

open V91Core.Python

section Writer

-- A new line at this level.
def newLine (level : Nat) : PyStr := cp '\n' :: List.replicate (2 * level) (cp ' ')

-- The items of a container, each on a line of its own.
def onLines (first last : CodePoint) (level : Nat) (texts : List PyStr) : PyStr :=
  if texts = [] then [first, last]
  else first :: (newLine (level + 1) ++ joinWith (cp ',' :: newLine (level + 1)) texts ++ newLine level ++ [last])

mutual

-- `json.dumps` with `indent=2`.
def encodeLines (st : Style) (limit level : Nat) : Json → Except EncodeError PyStr
  | .arr items =>
      match limit with
      | 0 => .error .recursion
      | limit + 1 =>
          (sequence (encodeLinesItems st limit (level + 1) items)).map (onLines (cp '[') (cp ']') level)
  | .obj fields =>
      match limit with
      | 0 => .error .recursion
      | limit + 1 =>
          let entries := encodeLinesFields st limit (level + 1) fields
          let entries := if st.sortKeys then sortKeys entries else entries
          (sequence (entries.map (fieldText st))).map (onLines (cp '{') (cp '}') level)
  | j => encode st limit j

def encodeLinesItems (st : Style) (limit level : Nat) : List Json → List (Except EncodeError PyStr)
  | [] => []
  | j :: items => encodeLines st limit level j :: encodeLinesItems st limit level items

def encodeLinesFields (st : Style) (limit level : Nat) :
    List (PyStr × Json) → List (PyStr × Except EncodeError PyStr)
  | [] => []
  | (k, v) :: fields => (k, encodeLines st limit level v) :: encodeLinesFields st limit level fields

end

@[simp] theorem encodeLinesItems_eq (st : Style) (limit level : Nat) (items : List Json) :
    encodeLinesItems st limit level items = items.map (encodeLines st limit level) := by
  induction items with
  | nil => rfl
  | cons j items ih => rw [encodeLinesItems, ih, List.map_cons]

@[simp] theorem encodeLinesFields_eq (st : Style) (limit level : Nat) (fields : List (PyStr × Json)) :
    encodeLinesFields st limit level fields = fields.map fun f => (f.1, encodeLines st limit level f.2) := by
  induction fields with
  | nil => rfl
  | cons f fields ih => rw [encodeLinesFields, ih, List.map_cons]

-- A value that is no container.
def isAtom : Json → Bool
  | .arr _ | .obj _ => false
  | _ => true

theorem encodeLines_atom (st : Style) (limit level : Nat) (j : Json) (h : isAtom j = true) :
    encodeLines st limit level j = encode st limit j := by
  cases j with
  | arr items => cases h
  | obj fields => cases h
  | _ => rfl

end Writer

section Order

-- What is sorted while it is written.
theorem encodeLines_order (st : Style) (limit level : Nat) (j : Json) :
    encodeLines st limit level j = encodeLines { st with sortKeys := false } limit level (order st j) := by
  induction j using ind generalizing limit level with
  | arr items ih =>
      rw [order_arr]
      cases limit with
      | zero => rfl
      | succ limit =>
          have hitems : items.map (encodeLines st limit (level + 1)) =
              (items.map (order st)).map (encodeLines { st with sortKeys := false } limit (level + 1)) := by
            rw [List.map_map]
            exact List.map_congr_left fun j hj => ih j hj limit (level + 1)
          rw [encodeLines, encodeLines, encodeLinesItems_eq, encodeLinesItems_eq, hitems]
  | obj fields ih =>
      rw [order_obj]
      cases limit with
      | zero => rfl
      | succ limit =>
          have hvalue : ∀ entries : List (PyStr × Json), (∀ f ∈ entries, f ∈ fields) →
              entries.map (fun f => (f.1, encodeLines st limit (level + 1) f.2)) =
                (entries.map fun f => (f.1, order st f.2)).map
                  fun f => (f.1, encodeLines { st with sortKeys := false } limit (level + 1) f.2) := by
            intro entries hsub
            rw [List.map_map]
            exact List.map_congr_left fun f hf => Prod.ext rfl (ih f (hsub f hf) limit (level + 1))
          have hfields : (if st.sortKeys then sortKeys (fields.map fun f => (f.1, encodeLines st limit (level + 1) f.2))
              else fields.map fun f => (f.1, encodeLines st limit (level + 1) f.2)) =
              ((if st.sortKeys then sortKeys fields else fields).map fun f => (f.1, order st f.2)).map
                fun f => (f.1, encodeLines { st with sortKeys := false } limit (level + 1) f.2) := by
            split
            · rw [sortKeys_map (fun f : PyStr × Json => (f.1, encodeLines st limit (level + 1) f.2)) (fun _ => rfl)]
              exact hvalue _ fun f hf => (sortKeys_perm _).mem_iff.mp hf
            · exact hvalue _ fun f hf => hf
          rw [encodeLines, encodeLines, encodeLinesFields_eq, encodeLinesFields_eq]
          dsimp only
          rw [hfields]
          rfl
  | null => rw [order_atom st _ rfl, encodeLines_atom _ _ _ _ rfl, encodeLines_atom _ _ _ _ rfl]; rfl
  | bool b => rw [order_atom st _ rfl, encodeLines_atom _ _ _ _ rfl, encodeLines_atom _ _ _ _ rfl]; cases b <;> rfl
  | int n => rw [order_atom st _ rfl, encodeLines_atom _ _ _ _ rfl, encodeLines_atom _ _ _ _ rfl]; rfl
  | float x => rw [order_atom st _ rfl, encodeLines_atom _ _ _ _ rfl, encodeLines_atom _ _ _ _ rfl]; rfl
  | str s => rw [order_atom st _ rfl, encodeLines_atom _ _ _ _ rfl, encodeLines_atom _ _ _ _ rfl]; rfl

end Order

section Reading

theorem newLine_ws (level : Nat) : ∀ c ∈ newLine level, isWs c = true := by
  intro c hc
  rcases List.mem_cons.mp hc with rfl | hc
  · decide
  · rw [List.eq_of_mem_replicate hc]
    decide

theorem skipWs_newLine (level : Nat) (s : PyStr) : skipWs (newLine level ++ s) = skipWs s :=
  dropWhile_append_all isWs _ s (newLine_ws level)

theorem numberEnd_newLine (level : Nat) (s : PyStr) : NumberEnd (newLine level ++ s) :=
  ⟨by decide, by decide, by decide, by decide⟩

theorem newLine_separates (level : Nat) : Separates (cp ',' :: newLine level) := by
  intro s
  exact ⟨newLine level ++ s, rfl, skipWs_newLine level s⟩

variable {α : Type} (item : PyStr → Scan α) (close : CodePoint) (level : Nat) (texts : List PyStr) (as : List α)

-- The lines between two brackets are read as their items.
theorem parseList_newLine (hclose : close = cp ']' ∨ close = cp '}') (h : List.Forall₂ (ReadsAs item) texts as)
    (hne : texts ≠ []) (bound : Nat) (hbound : texts.length ≤ bound) (r : PyStr) :
    parseList item close bound (joinWith (cp ',' :: newLine (level + 1)) texts ++ (newLine level ++ close :: r)) =
      .ok (as, r) := by
  have hcomma : cp ',' ≠ close ∧ isWs close = false := by
    rcases hclose with rfl | rfl <;> decide
  refine parseList_separated _ (newLine_separates (level + 1)) item close hcomma.1 texts as h hne bound hbound _ r
    (numberEnd_newLine level _) ?_
  rw [skipWs_newLine, skipWs_cons close r hcomma.2]

theorem onLines_append (first last : CodePoint) (hne : texts ≠ []) (r : PyStr) :
    onLines first last level texts ++ r = first :: (newLine (level + 1) ++
      (joinWith (cp ',' :: newLine (level + 1)) texts ++ (newLine level ++ last :: r))) := by
  simp [onLines, if_neg hne]

theorem length_le_onLines (lead tail : PyStr) (h : List.Forall₂ (ReadsAs item) texts as) :
    texts.length ≤ (lead ++ (joinWith (cp ',' :: newLine (level + 1)) texts ++ tail)).length + 1 := by
  have hbound := parseList_bound (cp ',' :: newLine (level + 1)) item texts as h tail
  rw [List.length_append]
  omega

end Reading

section Values

variable (st : Style) (limit level : Nat)

theorem parseArray_newLine (value : PyStr → Scan Json) (texts : List PyStr) (items : List Json) (hne : texts ≠ [])
    (h : List.Forall₂ (ReadsAs value) texts items) (r : PyStr) :
    parseArray value (newLine (level + 1) ++ (joinWith (cp ',' :: newLine (level + 1)) texts ++
      (newLine level ++ cp ']' :: r))) = .ok (.arr items, r) := by
  obtain ⟨hskip, hbracket, -⟩ := joinWith_start (cp ',' :: newLine (level + 1)) value texts items h hne
    (newLine level ++ cp ']' :: r)
  rw [parseArray, skipWs_newLine, hskip, if_neg hbracket, parseList_newLine value (cp ']') level texts
    items (.inl rfl) h
    hne _ (length_le_onLines value level texts items _ _ h) r]

theorem parseObject_newLine (value : PyStr → Scan Json) (texts : List PyStr) (fields : List (PyStr × Json))
    (hne : texts ≠ []) (h : List.Forall₂ (ReadsAs (parseMember value)) texts fields) (r : PyStr) :
    parseObject value (newLine (level + 1) ++ (joinWith (cp ',' :: newLine (level + 1)) texts ++
      (newLine level ++ cp '}' :: r))) = .ok (.obj (dictOf fields), r) := by
  obtain ⟨hskip, -, hbrace⟩ := joinWith_start (cp ',' :: newLine (level + 1)) (parseMember value) texts fields h hne
    (newLine level ++ cp '}' :: r)
  rw [parseObject, skipWs_newLine, hskip, if_neg hbrace, parseList_newLine (parseMember value) (cp '}')
    level texts fields
    (.inr rfl) h hne _ (length_le_onLines (parseMember value) level texts fields _ _ h) r]

-- The bracket in front of a container.
theorem onLines_start (first last : CodePoint) (texts : List PyStr) :
    ∃ rest, onLines first last level texts = first :: rest := by
  unfold onLines
  split
  · exact ⟨_, rfl⟩
  · exact ⟨_, rfl⟩

theorem arr_readsAs (texts : List PyStr) (items : List Json)
    (h : List.Forall₂ (ReadsAs (parseValue limit)) texts items) :
    ReadsAs (parseValue (limit + 1)) (onLines (cp '[') (cp ']') level texts) (.arr items) := by
  obtain ⟨rest, hrest⟩ := onLines_start level (cp '[') (cp ']') texts
  refine ⟨⟨_, rest, hrest, by decide, by decide, by decide, by decide⟩, fun r _ => ?_⟩
  by_cases hne : texts = []
  · subst hne
    cases h
    rfl
  · rw [onLines_append level texts _ _ hne]
    exact parseArray_newLine level (parseValue limit) texts items hne h r

theorem obj_readsAs_lines (texts : List PyStr) (fields : List (PyStr × Json))
    (h : List.Forall₂ (ReadsAs (parseMember (parseValue limit))) texts fields) :
    ReadsAs (parseValue (limit + 1)) (onLines (cp '{') (cp '}') level texts) (.obj (dictOf fields)) := by
  obtain ⟨rest, hrest⟩ := onLines_start level (cp '{') (cp '}') texts
  refine ⟨⟨_, rest, hrest, by decide, by decide, by decide, by decide⟩, fun r _ => ?_⟩
  by_cases hne : texts = []
  · subst hne
    cases h
    rfl
  · rw [onLines_append level texts _ _ hne]
    exact parseObject_newLine level (parseValue limit) texts fields hne h r

-- An indented text is read as the text on one line would be.
theorem encodeLines_reread (hascii : st.ensureAscii = true) (hsort : st.sortKeys = false) (j : Json) (text : PyStr)
    (h : encodeLines st limit level j = .ok text) : ReadsAs (parseValue limit) text (reread j) := by
  induction j using ind generalizing limit level text with
  | arr items ih =>
      cases limit with
      | zero => cases h
      | succ limit =>
          rw [encodeLines, encodeLinesItems_eq] at h
          obtain ⟨texts, htexts, rfl⟩ := map_eq_ok _ _ _ h
          have hall := forall₂_of_sequence (ReadsAs (parseValue limit)) (encodeLines st limit (level + 1))
            reread items texts
            htexts fun j hj t ht => ih j hj limit (level + 1) t ht
          rw [reread, rereadItems_eq]
          exact arr_readsAs limit level texts _ hall
  | obj fields ih =>
      cases limit with
      | zero => cases h
      | succ limit =>
          rw [encodeLines, encodeLinesFields_eq, hsort] at h
          obtain ⟨texts, htexts, rfl⟩ := map_eq_ok _ _ _ h
          simp only [Bool.false_eq_true, if_false, List.map_map] at htexts
          have hall := forall₂_of_sequence (ReadsAs (parseMember (parseValue limit))) _
            (fun f : PyStr × Json => (joinPairs f.1, reread f.2)) fields texts htexts ?_
          · rw [reread, rereadFields_eq]
            exact obj_readsAs_lines limit level texts _ hall
          · intro f hf t ht
            obtain ⟨v, hv, rfl⟩ := map_eq_ok _ _ _ ht
            refine member_readsAs_key st _ f.1 (joinPairs f.1) v _ (fun r => ?_) (ih f hf limit (level + 1) v hv)
            rw [hascii]
            exact scanString_joinPairs f.1 r
  | null => exact encode_reread st hascii hsort limit .null text h
  | bool b =>
      exact encode_reread st hascii hsort limit (.bool b) text ((encodeLines_atom st limit level _ rfl).symm.trans h)
  | int n => exact encode_reread st hascii hsort limit (.int n) text h
  | float x => exact encode_reread st hascii hsort limit (.float x) text h
  | str s => exact encode_reread st hascii hsort limit (.str s) text h

theorem loads_encodeLines (hascii : st.ensureAscii = true) (hsort : st.sortKeys = true) (j : Json) (text post : PyStr)
    (hpost : ∀ c ∈ post, isWs c = true) (h : encodeLines st limit level j = .ok text) :
    loads limit (text ++ post) = .ok (reread (norm j)) := by
  rw [encodeLines_order] at h
  have hreads := encodeLines_reread { st with sortKeys := false } limit level hascii rfl _ text h
  have hloads := loads_readsAs limit text [] post _ hreads (by simp) hpost
  rwa [List.nil_append, order, hsort, if_pos rfl] at hloads

end Values

section Room

variable (st : Style)

theorem fits_of_encodeLines (limit level : Nat) (j : Json) (text : PyStr)
    (h : encodeLines st limit level j = .ok text) : Fits st.allowNan limit j := by
  induction j using ind generalizing limit level text with
  | arr items ih =>
      cases limit with
      | zero => cases h
      | succ limit =>
          rw [encodeLines, encodeLinesItems_eq] at h
          obtain ⟨texts, htexts, -⟩ := map_eq_ok _ _ _ h
          have hall := (sequence_isOk_iff _).mp ⟨texts, htexts⟩
          refine ⟨Nat.succ_pos _, (fitsItems_iff _ _ _).mpr fun j hj => ?_⟩
          obtain ⟨t, ht⟩ := hall _ (List.mem_map_of_mem hj)
          exact ih j hj limit (level + 1) t ht
  | obj fields ih =>
      cases limit with
      | zero => cases h
      | succ limit =>
          rw [encodeLines, encodeLinesFields_eq] at h
          obtain ⟨texts, htexts, -⟩ := map_eq_ok _ _ _ h
          have hall := (sequence_isOk_iff _).mp ⟨texts, htexts⟩
          refine ⟨Nat.succ_pos _, (fitsFields_iff _ _ _).mpr fun f hf => ?_⟩
          have hmem : (f.1, encodeLines st limit (level + 1) f.2) ∈
              if st.sortKeys then sortKeys (fields.map fun f => (f.1, encodeLines st limit (level + 1) f.2))
              else fields.map fun f => (f.1, encodeLines st limit (level + 1) f.2) := by
            split
            · exact (sortKeys_perm _).mem_iff.mpr (List.mem_map_of_mem hf)
            · exact List.mem_map_of_mem hf
          obtain ⟨t, ht⟩ := hall _ (List.mem_map_of_mem hmem)
          obtain ⟨v, hv, -⟩ := map_eq_ok _ _ _ ht
          exact ih f hf limit (level + 1) v hv
  | null => trivial
  | bool b => trivial
  | int n => exact (encode_isOk_iff st limit (.int n)).mp ⟨text, h⟩
  | float x => exact (encode_isOk_iff st limit (.float x)).mp ⟨text, h⟩
  | str s => trivial

-- The lines do not depend on the room that is left where the value is written.
theorem encodeLines_fits (limit limit' level : Nat) (j : Json) (h : Fits st.allowNan limit j)
    (h' : Fits st.allowNan limit' j) : encodeLines st limit level j = encodeLines st limit' level j := by
  induction j using ind generalizing limit limit' level with
  | arr items ih =>
      obtain ⟨limit, rfl⟩ : ∃ n, limit = n + 1 := ⟨limit - 1, by have := h.1; omega⟩
      obtain ⟨limit', rfl⟩ : ∃ n, limit' = n + 1 := ⟨limit' - 1, by have := h'.1; omega⟩
      have hitems : items.map (encodeLines st limit (level + 1)) = items.map (encodeLines st limit' (level + 1)) :=
        List.map_congr_left fun j hj =>
          ih j hj _ _ _ ((fitsItems_iff _ _ _).mp h.2 j hj) ((fitsItems_iff _ _ _).mp h'.2 j hj)
      simp only [encodeLines, encodeLinesItems_eq, hitems]
  | obj fields ih =>
      obtain ⟨limit, rfl⟩ : ∃ n, limit = n + 1 := ⟨limit - 1, by have := h.1; omega⟩
      obtain ⟨limit', rfl⟩ : ∃ n, limit' = n + 1 := ⟨limit' - 1, by have := h'.1; omega⟩
      have hfields : (fields.map fun f => (f.1, encodeLines st limit (level + 1) f.2)) =
          fields.map fun f => (f.1, encodeLines st limit' (level + 1) f.2) := List.map_congr_left fun f hf => by
        rw [ih f hf limit limit' (level + 1) ((fitsFields_iff _ _ _).mp h.2 f hf)
          ((fitsFields_iff _ _ _).mp h'.2 f hf)]
      simp only [encodeLines, encodeLinesFields_eq, hfields]
  | null => rfl
  | bool b => cases b <;> rfl
  | int n => rfl
  | float x => rfl
  | str s => rfl

end Room

section Characters

variable (st : Style)

-- The characters of an indented text.
abbrev LineChar (c : CodePoint) : Prop := c = cp '\n' ∨ (0x20 ≤ c.val ∧ c.val < 0x80)

theorem newLine_chars (level : Nat) : ∀ c ∈ newLine level, LineChar c := by
  intro c hc
  rcases List.mem_cons.mp hc with rfl | hc
  · exact .inl rfl
  · rw [List.eq_of_mem_replicate hc]
    decide

theorem joinWith_lineChars (sep : PyStr) (hsep : ∀ c ∈ sep, LineChar c) (texts : List PyStr)
    (h : ∀ t ∈ texts, ∀ c ∈ t, LineChar c) : ∀ c ∈ joinWith sep texts, LineChar c := by
  induction texts with
  | nil => simp [joinWith]
  | cons t texts ih =>
      obtain ⟨ht, hrest⟩ := List.forall_mem_cons.mp h
      cases texts with
      | nil => exact ht
      | cons u texts => exact List.forall_mem_append.mpr ⟨List.forall_mem_append.mpr ⟨ht, hsep⟩, ih hrest⟩

theorem onLines_chars (first last : CodePoint) (hfirst : LineChar first) (hlast : LineChar last) (level : Nat)
    (texts : List PyStr) (h : ∀ t ∈ texts, ∀ c ∈ t, LineChar c) : ∀ c ∈ onLines first last level texts, LineChar c := by
  have hcomma : LineChar (cp ',') := by decide
  have hjoin := joinWith_lineChars (cp ',' :: newLine (level + 1))
    (List.forall_mem_cons.mpr ⟨hcomma, newLine_chars _⟩) texts h
  unfold onLines
  split
  · simp [hfirst, hlast]
  · refine List.forall_mem_cons.mpr ⟨hfirst, ?_⟩
    simp only [List.forall_mem_append, List.forall_mem_singleton]
    exact ⟨⟨⟨newLine_chars _, hjoin⟩, newLine_chars _⟩, hlast⟩

theorem encode_lineChars (hascii : st.ensureAscii = true) (limit : Nat) (j : Json) (text : PyStr)
    (h : encode st limit j = .ok text) : ∀ c ∈ text, LineChar c := by
  intro c hc
  have hhigh := encode_ascii_chars (fun c => c.val < 0x80) (fun _ hc => hc) st hascii limit j text h c hc
  exact .inr ⟨encode_printable st limit j text h c hc, hhigh⟩

theorem keySep_chars : ∀ c ∈ st.keySep, LineChar c := by
  unfold Style.keySep
  split
  · exact List.forall_mem_cons.mpr ⟨by decide, List.forall_mem_singleton.mpr (by decide)⟩
  · exact List.forall_mem_singleton.mpr (by decide)

theorem encodeLines_chars (hascii : st.ensureAscii = true) (limit level : Nat) (j : Json) (text : PyStr)
    (h : encodeLines st limit level j = .ok text) : ∀ c ∈ text, LineChar c := by
  induction j using ind generalizing limit level text with
  | arr items ih =>
      cases limit with
      | zero => cases h
      | succ limit =>
          rw [encodeLines, encodeLinesItems_eq] at h
          obtain ⟨texts, htexts, rfl⟩ := map_eq_ok _ _ _ h
          rw [sequence_eq_ok_iff] at htexts
          refine onLines_chars _ _ (by decide) (by decide) level texts fun t ht => ?_
          have hmem : Except.ok t ∈ items.map (encodeLines st limit (level + 1)) := htexts ▸ List.mem_map_of_mem ht
          obtain ⟨j, hj, hjt⟩ := List.mem_map.mp hmem
          exact ih j hj limit (level + 1) t hjt
  | obj fields ih =>
      cases limit with
      | zero => cases h
      | succ limit =>
          rw [encodeLines, encodeLinesFields_eq] at h
          obtain ⟨texts, htexts, rfl⟩ := map_eq_ok _ _ _ h
          rw [sequence_eq_ok_iff] at htexts
          refine onLines_chars _ _ (by decide) (by decide) level texts fun t ht => ?_
          have hmem : Except.ok t ∈ _ := htexts ▸ List.mem_map_of_mem ht
          obtain ⟨entry, hentry, ht⟩ := List.mem_map.mp hmem
          have hentry' : entry ∈ fields.map fun f => (f.1, encodeLines st limit (level + 1) f.2) := by
            split at hentry
            · exact (sortKeys_perm _).mem_iff.mp hentry
            · exact hentry
          obtain ⟨f, hf, rfl⟩ := List.mem_map.mp hentry'
          obtain ⟨v, hv, rfl⟩ := map_eq_ok _ _ _ ht
          have hkey := encode_lineChars st hascii 0 (.str f.1) _ rfl
          simp only [List.forall_mem_append]
          exact ⟨⟨hkey, keySep_chars st⟩, ih f hf limit (level + 1) v hv⟩
  | null => exact encode_lineChars st hascii limit .null text h
  | bool b =>
      exact encode_lineChars st hascii limit (.bool b) text ((encodeLines_atom st limit level _ rfl).symm.trans h)
  | int n => exact encode_lineChars st hascii limit (.int n) text h
  | float x => exact encode_lineChars st hascii limit (.float x) text h
  | str s => exact encode_lineChars st hascii limit (.str s) text h

end Characters

section Lookup

-- A value after it has been written with sorted names and read again.
def asRead (j : Json) : Json := reread (norm j)

-- Names that are read as they are written lead to the same values.
theorem asRead_obj (fields : List (PyStr × Json)) (hnodup : (fields.map Prod.fst).Nodup)
    (hnames : ∀ name ∈ fields.map Prod.fst, joinPairs name = name) :
    ∃ others, asRead (.obj fields) = .obj others ∧ ∀ key, lookup key others = (lookup key fields).map asRead := by
  have hsorted : ∀ f ∈ sortKeys fields, joinPairs f.1 = f.1 := fun f hf =>
    hnames f.1 (List.mem_map_of_mem ((sortKeys_perm fields).mem_iff.mp hf))
  have hfields : rereadFields (sortKeys (fields.map fun f => (f.1, norm f.2))) =
      (sortKeys fields).map fun f => (f.1, asRead f.2) := by
    rw [sortKeys_map (fun f : PyStr × Json => (f.1, norm f.2)) (fun _ => rfl), rereadFields_eq, List.map_map]
    exact List.map_congr_left fun f hf => Prod.ext (hsorted f hf) rfl
  have hkeys : (((sortKeys fields).map fun f => (f.1, asRead f.2)).map Prod.fst).Nodup := by
    rw [List.map_map]
    exact ((sortKeys_perm fields).map Prod.fst).nodup_iff.mpr hnodup
  refine ⟨(sortKeys fields).map fun f => (f.1, asRead f.2), ?_, fun key => ?_⟩
  · rw [asRead, norm, normFields_eq, reread, hfields, dictOf_eq _ hkeys]
  · rw [lookup_map, lookup_perm key _ _ (((sortKeys_perm fields).map Prod.fst).nodup_iff.mpr hnodup)
      (sortKeys_perm fields)]

end Lookup

end V91Core.Json
