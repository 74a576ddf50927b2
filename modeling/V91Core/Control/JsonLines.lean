import V91Core.Effect.Eval
import V91Core.Json.Objects
import V91Core.Python.Exc
import V91Core.Python.ReadText

namespace V91Core.Control

open V91Core.Python V91Core.Effect

abbrev Fields := List (PyStr × Json)

section Model

variable (rt : Runtime)

-- The items when all of them are objects.
def objectsOf : List Json → Option (List Fields)
  | [] => some []
  | .obj fields :: items => (objectsOf items).map (fields :: ·)
  | _ :: _ => none

-- A text that is JSON as a whole.
def recordsOf (value : Json) : Except PyExc (List Fields) :=
  match value with
  | .arr items => ofOption (.controlError (py "Docker output contains a non-object entry.")) (objectsOf items)
  | .obj fields => .ok [fields]
  | _ => .error (.controlError (py "Docker output is not a JSON object or array."))

def parseLine (number : Nat) (line : PyStr) : Except PyExc Fields :=
  match loadsText rt line with
  | .ok (.obj fields) => .ok fields
  | .ok _ => .error (.controlError (py "Docker JSON line " ++ natText number ++ py " is not an object."))
  | .error (.jsonDecode _ _) => .error (.controlError (py "Invalid Docker JSON on line " ++ natText number ++ py "."))
  | .error e => .error e

def parseLines : Nat → List PyStr → Except PyExc (List Fields)
  | _, [] => .ok []
  | number, line :: lines => do
      let record ← parseLine rt number line
      let records ← parseLines (number + 1) lines
      .ok (record :: records)

def parseJsonLines (raw : PyStr) : Except PyExc (List Fields) :=
  let raw := strip raw
  if raw = [] then .ok []
  else match loadsText rt raw with
    | .ok value => recordsOf value
    | .error (.jsonDecode _ _) => parseLines rt 1 (splitlines false raw)
    | .error e => .error e

end Model

section Texts

-- A JSON text of an object on one line. How deep it may be nested is left to the reader.
structure IsText (text : PyStr) (fields : Fields) : Prop where
  line : ∀ c ∈ text, c ≠ cp '\n' ∧ c ≠ cp '\r'
  valid : ∃ limit, Json.loads limit text = .ok (.obj fields)

def lineText (texts : List PyStr) : PyStr := Json.joinWith [cp '\n'] texts

def arrayText (texts : List PyStr) : PyStr := cp '[' :: (Json.joinWith [cp ','] texts ++ [cp ']'])

theorem IsText.parts {text : PyStr} {fields : Fields} (h : IsText text fields) :
    ∃ pre core post limit, text = pre ++ core ++ post ∧ (∀ c ∈ pre, Json.isWs c = true) ∧
      (∀ c ∈ post, Json.isWs c = true) ∧ Json.IsObject limit core fields := by
  obtain ⟨limit, hvalid⟩ := h.valid
  obtain ⟨pre, core, post, htext, hpre, hpost, hcore⟩ := Json.loads_obj limit text fields hvalid
  exact ⟨pre, core, post, limit, htext, hpre, hpost, hcore⟩

theorem breaks_append (post more : PyStr) (hpost : ∀ c ∈ post, Json.isWs c = true) (hmore : Json.Breaks more) :
    Json.Breaks (post ++ more) := by
  cases post with
  | nil => exact hmore
  | cons c post => exact fun d hd => Json.breaks_of_ws (c :: post) hpost d hd

theorem skipWs_blank (post more : PyStr) (hpost : ∀ c ∈ post, Json.isWs c = true) :
    Json.skipWs (post ++ more) = Json.skipWs more := by
  have hblank : Json.skipWs post = [] := List.dropWhile_eq_nil_iff.mpr hpost
  rw [Json.skipWs_append, if_pos hblank]

-- The text starts with an opening brace.
theorem IsText.brace {text : PyStr} {fields : Fields} (h : IsText text fields) :
    ∃ rest, ∀ more, Json.skipWs (text ++ more) = cp '{' :: (rest ++ more) := by
  obtain ⟨pre, core, post, limit, rfl, hpre, -, hcore⟩ := h.parts
  obtain ⟨inner, rfl⟩ := hcore.braces
  refine ⟨inner ++ [cp '}'] ++ post, fun more => ?_⟩
  rw [List.append_assoc, List.append_assoc, List.cons_append, Json.skipWs_brace pre _ hpre, List.append_assoc,
    List.append_assoc, List.append_assoc]

theorem IsText.noBom {text : PyStr} {fields : Fields} (h : IsText text fields) (more : PyStr) :
    (text ++ more).head? ≠ some (chr 0xFEFF) := by
  obtain ⟨pre, core, post, limit, rfl, hpre, -, hcore⟩ := h.parts
  obtain ⟨inner, rfl⟩ := hcore.braces
  rw [List.append_assoc, List.append_assoc, List.cons_append]
  exact Json.head_brace pre _ hpre

-- At every limit the text is read as its object, whatever follows it, or there is no room for it.
theorem IsText.reads {text : PyStr} {fields : Fields} (h : IsText text fields) (limit : Nat) :
    (Json.loads limit text = .ok (.obj fields) ∧ ∀ more, Json.Breaks more →
      ∃ post, Json.parseValue limit (Json.skipWs (text ++ more)) = .ok (.obj fields, post ++ more) ∧
        Json.skipWs (post ++ more) = Json.skipWs more) ∨
    (Json.loads limit text = .error .recursion ∧ ∀ more, Json.Breaks more →
      Json.parseValue limit (Json.skipWs (text ++ more)) = .error .recursion) := by
  obtain ⟨pre, core, post, limit', rfl, hpre, hpost, hcore⟩ := h.parts
  obtain ⟨inner, hbraces⟩ := id hcore.braces
  have hskip : ∀ more, Json.skipWs (pre ++ core ++ post ++ more) = core ++ (post ++ more) := by
    intro more
    rw [List.append_assoc, List.append_assoc, hbraces, List.cons_append]
    exact Json.skipWs_brace pre _ hpre
  have hend : Json.skipWs post = [] := List.dropWhile_eq_nil_iff.mpr hpost
  rcases hcore.other limit with hread | hdeep
  · refine .inl ⟨?_, fun more hmore => ⟨post, ?_, skipWs_blank post more hpost⟩⟩
    · rw [hread.loads pre post hpre (Json.breaks_of_ws post hpost), if_pos hend]
    · rw [hskip, hread.append _ (breaks_append post more hpost hmore)]
  · refine .inr ⟨?_, fun more hmore => ?_⟩
    · have hvalue := hdeep post (Json.breaks_of_ws post hpost)
      have hwhole := hskip []
      rw [List.append_nil, List.append_nil] at hwhole
      have hbom : (pre ++ core ++ post).head? ≠ some (chr 0xFEFF) := by
        rw [List.append_assoc, hbraces, List.cons_append]
        exact Json.head_brace pre _ hpre
      rw [Json.loads, if_neg hbom, hwhole, hvalue]
    · rw [hskip, hdeep _ (breaks_append post more hpost hmore)]

end Texts

section Array

variable (limit : Nat)

-- The array of the texts is read when each of them is, one level deeper.
theorem parseList_texts (texts : List (PyStr × Fields)) (h : ∀ t ∈ texts, IsText t.1 t.2) (hne : texts ≠ [])
    (bound : Nat) (hbound : texts.length ≤ bound) :
    Json.parseList (Json.parseValue limit) (cp ']') bound
        (Json.skipWs (Json.joinWith [cp ','] (texts.map Prod.fst) ++ [cp ']'])) =
      if ∀ t ∈ texts, Json.loads limit t.1 = .ok (.obj t.2) then .ok (texts.map fun t => .obj t.2, [])
        else .error .recursion := by
  have hbracket : Json.Breaks [cp ']'] := fun c hc => by
    obtain rfl := Option.some.inj hc
    decide
  induction texts generalizing bound with
  | nil => exact absurd rfl hne
  | cons t texts ih =>
      obtain ⟨bound, rfl⟩ : ∃ b, bound = b + 1 := by
        rw [List.length_cons] at hbound
        exact Nat.exists_eq_succ_of_ne_zero (by omega)
      obtain ⟨ht, htexts⟩ := List.forall_mem_cons.mp h
      rw [Json.parseList_succ]
      -- what follows the text: the bracket, or a comma and the other texts
      cases texts with
      | nil =>
          rw [List.map_cons, List.map_nil, Json.joinWith]
          rcases ht.reads limit with ⟨hloads, hreads⟩ | ⟨hloads, hdeep⟩
          · obtain ⟨post, hvalue, hskip⟩ := hreads [cp ']'] hbracket
            have hall : ∀ u ∈ [t], Json.loads limit u.1 = .ok (.obj u.2) := by
              intro u hu
              rw [List.mem_singleton.mp hu, hloads]
            rw [hvalue, if_pos hall, Json.andThen, Json.afterItem, hskip]
            rfl
          · have hnot : ¬ ∀ u ∈ [t], Json.loads limit u.1 = .ok (.obj u.2) := by
              intro hall
              have hfirst := hall t List.mem_cons_self
              rw [hloads] at hfirst
              cases hfirst
            rw [hdeep _ hbracket, if_neg hnot]
            rfl
      | cons u texts =>
          have hrest := ih htexts (List.cons_ne_nil _ _) bound (by
            rw [List.length_cons] at hbound
            omega)
          generalize hmore : cp ',' :: (Json.joinWith [cp ','] ((u :: texts).map Prod.fst) ++ [cp ']']) = more
          have hjoin : Json.joinWith [cp ','] ((t :: u :: texts).map Prod.fst) ++ [cp ']'] = t.1 ++ more := by
            rw [← hmore, List.map_cons, List.map_cons, Json.joinWith, List.append_assoc, List.append_assoc]
            rfl
          have hcomma : Json.Breaks more := fun c hc => by
            rw [← hmore] at hc
            obtain rfl := Option.some.inj hc
            decide
          rw [hjoin]
          rcases ht.reads limit with ⟨hloads, hreads⟩ | ⟨hloads, hdeep⟩
          · obtain ⟨post, hvalue, hskip⟩ := hreads more hcomma
            rw [← hmore, Json.skipWs_cons _ _ (by decide)] at hskip
            rw [hvalue, Json.andThen, Json.afterItem, ← hmore, hskip]
            dsimp only
            rw [if_neg (by decide), if_pos rfl, hrest]
            by_cases hothers : ∀ v ∈ u :: texts, Json.loads limit v.1 = .ok (.obj v.2)
            · have hall : ∀ v ∈ t :: u :: texts, Json.loads limit v.1 = .ok (.obj v.2) :=
                List.forall_mem_cons.mpr ⟨hloads, hothers⟩
              rw [if_pos hothers, if_pos hall]
              rfl
            · rw [if_neg hothers, if_neg fun hall => hothers (List.forall_mem_cons.mp hall).2]
              rfl
          · have hnot : ¬ ∀ v ∈ t :: u :: texts, Json.loads limit v.1 = .ok (.obj v.2) := by
              intro hall
              have hfirst := hall t List.mem_cons_self
              rw [hloads] at hfirst
              cases hfirst
            rw [hdeep _ hcomma, if_neg hnot]
            rfl

theorem length_le_joinWith (sep : PyStr) (hsep : sep ≠ []) (texts : List PyStr) :
    texts.length ≤ (Json.joinWith sep texts).length + 1 := by
  have hpos := List.length_pos_of_ne_nil hsep
  induction texts with
  | nil => exact Nat.zero_le _
  | cons t texts ih =>
      cases texts with
      | nil => exact Nat.succ_le_succ (Nat.zero_le _)
      | cons u texts =>
          rw [Json.joinWith, List.length_append, List.length_append]
          rw [List.length_cons]
          omega

theorem joinWith_cons (sep text : PyStr) (texts : List PyStr) :
    ∃ more, Json.joinWith sep (text :: texts) = text ++ more := by
  cases texts with
  | nil => exact ⟨[], (List.append_nil text).symm⟩
  | cons t texts => exact ⟨sep ++ Json.joinWith sep (t :: texts), List.append_assoc ..⟩

theorem objectsOf_map (texts : List (PyStr × Fields)) :
    objectsOf (texts.map fun t => .obj t.2) = some (texts.map Prod.snd) := by
  induction texts with
  | nil => rfl
  | cons t texts ih =>
      rw [List.map_cons, objectsOf, ih]
      rfl

theorem dropWhile_head (P : CodePoint → Bool) (c : CodePoint) (s : PyStr) (hc : P c = false) :
    (c :: s).dropWhile P = c :: s := by
  rw [List.dropWhile_cons, if_neg (by rw [hc]; exact Bool.false_ne_true)]

-- A text between two characters that are no white space stays as it is.
theorem strip_between (c d : CodePoint) (inner : PyStr) (hc : c.isSpace = false) (hd : d.isSpace = false) :
    strip (c :: (inner ++ [d])) = c :: (inner ++ [d]) := by
  rw [strip, dropWhile_head _ c _ hc, ← List.cons_append]
  exact List.rdropWhile_concat_neg _ _ _ (by rw [hd]; exact Bool.false_ne_true)

variable (rt : Runtime)

-- The array is loaded when there is room for its texts.
theorem parseJsonLines_array (texts : List (PyStr × Fields)) (h : ∀ t ∈ texts, IsText t.1 t.2) (hne : texts ≠ []) :
    parseJsonLines rt (arrayText (texts.map Prod.fst)) =
      if ∀ t ∈ texts, Json.loads (rt.nesting - 1) t.1 = .ok (.obj t.2) then .ok (texts.map Prod.snd)
        else .error .recursionError := by
  have hstrip : strip (arrayText (texts.map Prod.fst)) = arrayText (texts.map Prod.fst) :=
    strip_between _ _ _ (by decide) (by decide)
  obtain ⟨t, others, rfl⟩ := List.exists_cons_of_ne_nil hne
  have ht := h t List.mem_cons_self
  generalize hrest : Json.joinWith [cp ','] ((t :: others).map Prod.fst) ++ [cp ']'] = rest
  have hopen : (Json.skipWs rest).head? ≠ some (cp ']') := by
    obtain ⟨more, hmore⟩ := joinWith_cons [cp ','] t.1 (others.map Prod.fst)
    obtain ⟨inner, hinner⟩ := ht.brace
    rw [← hrest, List.map_cons, hmore, List.append_assoc, hinner]
    exact fun h => absurd (Option.some.inj h) (by decide)
  have hloads : Json.loads rt.nesting (cp '[' :: rest) =
      if ∀ u ∈ t :: others, Json.loads (rt.nesting - 1) u.1 = .ok (.obj u.2) then
        .ok (.arr ((t :: others).map fun u => .obj u.2)) else .error .recursion := by
    have hskip : Json.skipWs (cp '[' :: rest) = cp '[' :: rest := Json.skipWs_cons _ _ (by decide)
    have hbom : (cp '[' :: rest).head? ≠ some (chr 0xFEFF) := fun h => absurd (Option.some.inj h) (by decide)
    rw [Json.loads, if_neg hbom, hskip]
    cases hnesting : rt.nesting with
    | zero =>
        have hnot : ¬ ∀ u ∈ t :: others, Json.loads (0 - 1) u.1 = .ok (.obj u.2) := by
          intro hall
          obtain ⟨pre, core, post, -, -, -, hcore⟩ := Json.loads_obj 0 t.1 t.2 (hall t List.mem_cons_self)
          obtain ⟨inner, rfl⟩ := hcore.braces
          cases hcore.reads
        rw [if_neg hnot]
        rfl
    | succ limit =>
        have hlist := parseList_texts limit (t :: others) h hne (rest.length + 1) (by
          have hlength := length_le_joinWith [cp ','] (by simp) ((t :: others).map Prod.fst)
          rw [← hrest, List.length_append]
          rw [List.length_map] at hlength
          omega)
        rw [hrest] at hlist
        have hvalue : Json.parseValue (limit + 1) (cp '[' :: rest) = Json.parseArray (Json.parseValue limit) rest := rfl
        rw [hvalue, Json.parseArray_eq, Json.bracket, if_neg hopen, hlist, Nat.add_sub_cancel]
        by_cases hall : ∀ u ∈ t :: others, Json.loads limit u.1 = .ok (.obj u.2)
        · rw [if_pos hall, if_pos hall]
          rfl
        · rw [if_neg hall, if_neg hall]
          rfl
  unfold parseJsonLines
  rw [hstrip, arrayText, hrest]
  dsimp only
  rw [if_neg (List.cons_ne_nil _ _), loadsText, hloads]
  by_cases hall : ∀ u ∈ t :: others, Json.loads (rt.nesting - 1) u.1 = .ok (.obj u.2)
  · rw [if_pos hall, if_pos hall]
    simp only [recordsOf, objectsOf_map, ofOption]
  · rw [if_neg hall, if_neg hall]

end Array

section Strip

-- `str.splitlines` cuts the text nowhere.
def Uncut (text : PyStr) : Prop := ∀ c ∈ text, isLineBoundary c = false

-- The text with less white space around it.
structure SameText (line text : PyStr × Fields) : Prop where
  fields : line.2 = text.2
  isText : IsText line.1 line.2
  uncut : Uncut line.1 ↔ Uncut text.1
  loads : ∀ limit, Json.loads limit text.1 = .ok (.obj text.2) → Json.loads limit line.1 = .ok (.obj line.2)

theorem isSpace_of_isWs (s : PyStr) (h : ∀ c ∈ s, Json.isWs c = true) : ∀ c ∈ s, c.isSpace = true := by
  intro c hc
  have hws := h c hc
  simp only [Json.isWs, Bool.or_eq_true, decide_eq_true_eq] at hws
  rcases hws with ((rfl | rfl) | rfl) | rfl <;> decide

theorem uncut_of_isWs (s : PyStr) (h : ∀ c ∈ s, Json.isWs c = true) (hline : ∀ c ∈ s, c ≠ cp '\n' ∧ c ≠ cp '\r') :
    Uncut s := by
  intro c hc
  have hws := h c hc
  obtain ⟨hlf, hcr⟩ := hline c hc
  simp only [Json.isWs, Bool.or_eq_true, decide_eq_true_eq] at hws
  rcases hws with ((rfl | rfl) | rfl) | rfl
  · decide
  · decide
  · exact absurd rfl hlf
  · exact absurd rfl hcr

theorem uncut_append (s t : PyStr) : Uncut (s ++ t) ↔ Uncut s ∧ Uncut t := List.forall_mem_append

theorem loads_spaced (limit limit' : Nat) (pre core post pre' post' : PyStr) (fields : Fields)
    (hcore : Json.IsObject limit' core fields) (hpre : ∀ c ∈ pre, Json.isWs c = true)
    (hpost : ∀ c ∈ post, Json.isWs c = true) (hpre' : ∀ c ∈ pre', Json.isWs c = true)
    (hpost' : ∀ c ∈ post', Json.isWs c = true) (h : Json.loads limit (pre ++ core ++ post) = .ok (.obj fields)) :
    Json.loads limit (pre' ++ core ++ post') = .ok (.obj fields) := by
  have hend : Json.skipWs post' = [] := List.dropWhile_eq_nil_iff.mpr hpost'
  rcases hcore.other limit with hread | hdeep
  · rw [hread.loads pre' post' hpre' (Json.breaks_of_ws post' hpost'), if_pos hend]
  · obtain ⟨inner, rfl⟩ := hcore.braces
    have hbom : (pre ++ cp '{' :: (inner ++ [cp '}']) ++ post).head? ≠ some (chr 0xFEFF) := by
      rw [List.append_assoc, List.cons_append]
      exact Json.head_brace pre _ hpre
    have hskip : Json.skipWs (pre ++ cp '{' :: (inner ++ [cp '}']) ++ post) =
        cp '{' :: (inner ++ [cp '}']) ++ post := by
      rw [List.append_assoc, List.cons_append]
      exact Json.skipWs_brace pre _ hpre
    rw [Json.loads, if_neg hbom, hskip, hdeep post (Json.breaks_of_ws post hpost)] at h
    cases h

-- Another selection of the white space around an object.
theorem IsText.respaced {pre core post : PyStr} {fields : Fields} (h : IsText (pre ++ core ++ post) fields)
    (limit : Nat) (hcore : Json.IsObject limit core fields) (hpre : ∀ c ∈ pre, Json.isWs c = true)
    (hpost : ∀ c ∈ post, Json.isWs c = true) (pre' post' : PyStr) (hpre' : pre' = pre ∨ pre' = [])
    (hpost' : post' = post ∨ post' = []) : SameText (pre' ++ core ++ post', fields) (pre ++ core ++ post, fields) := by
  have hpreline : ∀ c ∈ pre, c ≠ cp '\n' ∧ c ≠ cp '\r' := fun c hc => h.line c (by simp [hc])
  have hcoreline : ∀ c ∈ core, c ≠ cp '\n' ∧ c ≠ cp '\r' := fun c hc => h.line c (by simp [hc])
  have hpostline : ∀ c ∈ post, c ≠ cp '\n' ∧ c ≠ cp '\r' := fun c hc => h.line c (by simp [hc])
  have hless : ∀ (s s' : PyStr) (P : CodePoint → Prop), s' = s ∨ s' = [] → (∀ c ∈ s, P c) → ∀ c ∈ s', P c := by
    rintro s s' P (rfl | rfl) hs
    · exact hs
    · nofun
  have hws := hless pre pre' _ hpre' hpre
  have hws' := hless post post' _ hpost' hpost
  have hline := hless pre pre' _ hpre' hpreline
  have hline' := hless post post' _ hpost' hpostline
  have hloads := fun limit' => loads_spaced limit' limit pre core post pre' post' fields hcore hpre hpost hws hws'
  refine ⟨rfl, ⟨?_, ?_⟩, ?_, hloads⟩
  · intro c hc
    rcases List.mem_append.mp hc with hc | hc
    · exact (List.mem_append.mp hc).elim (hline c) (hcoreline c)
    · exact hline' c hc
  · obtain ⟨limit', hvalid⟩ := h.valid
    exact ⟨limit', hloads limit' hvalid⟩
  · rw [uncut_append, uncut_append, uncut_append, uncut_append,
      iff_true_intro (uncut_of_isWs pre hpre hpreline), iff_true_intro (uncut_of_isWs post hpost hpostline),
      iff_true_intro (uncut_of_isWs pre' hws hline), iff_true_intro (uncut_of_isWs post' hws' hline')]

theorem rdropWhile_append_all (P : CodePoint → Bool) (s t : PyStr) (ht : ∀ c ∈ t, P c = true) :
    (s ++ t).rdropWhile P = s.rdropWhile P := by
  rw [List.rdropWhile, List.rdropWhile, List.reverse_append,
    Json.dropWhile_append_all P t.reverse s.reverse fun c hc => ht c (List.mem_reverse.mp hc)]

theorem IsText.lstrip {text : PyStr} {fields : Fields} (h : IsText text fields) :
    ∃ line, SameText (line, fields) (text, fields) ∧
      ∀ more, (text ++ more).dropWhile CodePoint.isSpace = line ++ more := by
  obtain ⟨pre, core, post, limit, rfl, hpre, hpost, hcore⟩ := h.parts
  refine ⟨[] ++ core ++ post, h.respaced limit hcore hpre hpost [] post (.inr rfl) (.inl rfl), fun more => ?_⟩
  obtain ⟨inner, rfl⟩ := hcore.braces
  rw [List.append_assoc, List.append_assoc, Json.dropWhile_append_all _ pre _ (isSpace_of_isWs pre hpre),
    List.cons_append, dropWhile_head _ _ _ (by decide)]
  simp only [List.nil_append, List.append_assoc, List.cons_append]

theorem IsText.rstrip {text : PyStr} {fields : Fields} (h : IsText text fields) :
    ∃ line, SameText (line, fields) (text, fields) ∧
      ∀ before, (before ++ text).rdropWhile CodePoint.isSpace = before ++ line := by
  obtain ⟨pre, core, post, limit, rfl, hpre, hpost, hcore⟩ := h.parts
  refine ⟨pre ++ core ++ [], h.respaced limit hcore hpre hpost pre [] (.inl rfl) (.inr rfl), fun before => ?_⟩
  obtain ⟨inner, rfl⟩ := hcore.braces
  have hlast : before ++ (pre ++ cp '{' :: (inner ++ [cp '}'])) = (before ++ pre ++ cp '{' :: inner) ++ [cp '}'] := by
    rw [← List.cons_append, ← List.append_assoc, ← List.append_assoc]
  rw [← List.append_assoc, rdropWhile_append_all _ _ post (isSpace_of_isWs post hpost), List.append_nil, hlast]
  exact List.rdropWhile_concat_neg _ _ _ (by decide)

theorem SameText.trans {a b c : PyStr × Fields} (hab : SameText a b) (hbc : SameText b c) : SameText a c :=
  ⟨hab.fields.trans hbc.fields, hab.isText, hab.uncut.trans hbc.uncut, fun limit h =>
    hab.loads limit (hbc.loads limit h)⟩

theorem sameText_refl (t : PyStr × Fields) (h : IsText t.1 t.2) : SameText t t := ⟨rfl, h, Iff.rfl, fun _ => id⟩

theorem lineText_cons (text : PyStr) (texts : List PyStr) (hne : texts ≠ []) :
    lineText (text :: texts) = text ++ [cp '\n'] ++ lineText texts := by
  obtain ⟨t, texts, rfl⟩ := List.exists_cons_of_ne_nil hne
  rfl

theorem rstrip_lineText (texts : List (PyStr × Fields)) (h : ∀ t ∈ texts, IsText t.1 t.2) (hne : texts ≠ []) :
    ∃ lines, List.Forall₂ SameText lines texts ∧ ∀ before,
      (before ++ lineText (texts.map Prod.fst)).rdropWhile CodePoint.isSpace =
        before ++ lineText (lines.map Prod.fst) := by
  induction texts with
  | nil => exact absurd rfl hne
  | cons t texts ih =>
      obtain ⟨ht, htexts⟩ := List.forall_mem_cons.mp h
      by_cases hlast : texts = []
      · subst hlast
        obtain ⟨line, hsame, hstrip⟩ := ht.rstrip
        exact ⟨[(line, t.2)], .cons hsame .nil, hstrip⟩
      obtain ⟨lines, hsame, hstrip⟩ := ih htexts hlast
      refine ⟨t :: lines, .cons (sameText_refl t ht) hsame, fun before => ?_⟩
      have hlines : lines ≠ [] := by
        rintro rfl
        exact hlast (List.forall₂_nil_left_iff.mp hsame)
      rw [List.map_cons, List.map_cons, lineText_cons _ _ (by simpa using hlast),
        lineText_cons _ _ (by simpa using hlines), ← List.append_assoc, ← List.append_assoc, hstrip]
      simp only [List.append_assoc]

-- `strip` leaves a text of the same lines but for some white space.
theorem strip_lineText (texts : List (PyStr × Fields)) (h : ∀ t ∈ texts, IsText t.1 t.2) (hne : texts ≠ []) :
    ∃ lines, List.Forall₂ SameText lines texts ∧
      strip (lineText (texts.map Prod.fst)) = lineText (lines.map Prod.fst) := by
  obtain ⟨t, texts, rfl⟩ := List.exists_cons_of_ne_nil hne
  obtain ⟨ht, htexts⟩ := List.forall_mem_cons.mp h
  obtain ⟨first, hfirst, hlstrip⟩ := ht.lstrip
  have hrest : ∀ u ∈ (first, t.2) :: texts, IsText u.1 u.2 := List.forall_mem_cons.mpr ⟨hfirst.isText, htexts⟩
  obtain ⟨lines, hlines, hrstrip⟩ := rstrip_lineText ((first, t.2) :: texts) hrest (List.cons_ne_nil _ _)
  have hdrop : (lineText ((t :: texts).map Prod.fst)).dropWhile CodePoint.isSpace =
      lineText (((first, t.2) :: texts).map Prod.fst) := by
    by_cases hlast : texts = []
    · subst hlast
      have hone := hlstrip []
      rwa [List.append_nil, List.append_nil] at hone
    · have hmapped : texts.map Prod.fst ≠ [] := by simpa using hlast
      rw [List.map_cons, List.map_cons, lineText_cons _ _ hmapped, lineText_cons _ _ hmapped, List.append_assoc,
        hlstrip, ← List.append_assoc]
  refine ⟨lines, ?_, ?_⟩
  · cases hlines with
    | cons hline hothers => exact .cons (hline.trans hfirst) hothers
  · have hall := hrstrip []
    rw [List.nil_append, List.nil_append] at hall
    rw [strip, hdrop, hall]

end Strip

section Lines

variable (rt : Runtime)

-- What comes after an object on the next line cannot belong to the whole text.
theorem loads_lineText (t : PyStr × Fields) (texts : List (PyStr × Fields)) (h : ∀ u ∈ t :: texts, IsText u.1 u.2)
    (hne : texts ≠ []) (hloads : Json.loads rt.nesting t.1 = .ok (.obj t.2)) :
    ∃ msg left, loadsText rt (lineText ((t :: texts).map Prod.fst)) = .error (.jsonDecode msg left) := by
  obtain ⟨ht, htexts⟩ := List.forall_mem_cons.mp h
  obtain ⟨u, others, rfl⟩ := List.exists_cons_of_ne_nil hne
  obtain ⟨more, hmore⟩ := joinWith_cons [cp '\n'] u.1 (others.map Prod.fst)
  obtain ⟨inner, hbrace⟩ := (htexts u List.mem_cons_self).brace
  have hrest : Json.skipWs ([cp '\n'] ++ lineText ((u :: others).map Prod.fst)) = cp '{' :: (inner ++ more) := by
    rw [skipWs_blank [cp '\n'] _ (by simp [Json.isWs]), List.map_cons, lineText, hmore, hbrace]
  have hbreaks : Json.Breaks ([cp '\n'] ++ lineText ((u :: others).map Prod.fst)) := fun c hc => by
    obtain rfl := Option.some.inj hc
    decide
  rcases ht.reads rt.nesting with ⟨-, hreads⟩ | ⟨hdeep, -⟩
  · obtain ⟨post, hvalue, hskip⟩ := hreads _ hbreaks
    have hwhole : Json.loads rt.nesting (lineText ((t :: u :: others).map Prod.fst)) =
        .error (.unreadable "Extra data" (cp '{' :: (inner ++ more)).length) := by
      rw [List.map_cons, lineText_cons _ _ (by simp), List.append_assoc, Json.loads, if_neg (ht.noBom _), hvalue]
      dsimp only
      rw [hskip, hrest, if_neg (List.cons_ne_nil _ _)]
    exact ⟨"Extra data", _, by rw [loadsText, hwhole]⟩
  · rw [hdeep] at hloads
    cases hloads

theorem parseLine_eq_ok (number : Nat) (line : PyStr) (fields : Fields) :
    parseLine rt number line = .ok fields ↔ Json.loads rt.nesting line = .ok (.obj fields) := by
  rw [← loadsText_eq_ok]
  unfold parseLine
  split
  · next found h =>
      rw [h]
      constructor
      · intro heq
        rw [Except.ok.inj heq]
      · intro heq
        rw [Json.obj.inj (Except.ok.inj heq)]
  · next j hne h =>
      rw [h]
      constructor
      · nofun
      · intro heq
        exact absurd (Except.ok.inj heq) (hne fields)
  · next h =>
      rw [h]
      constructor <;> nofun
  · next h =>
      rw [h]
      constructor <;> nofun

theorem splitlines_uncut (line : PyStr) (hne : line ≠ []) (h : Uncut line) : splitlines false line = [line] := by
  induction line with
  | nil => exact absurd rfl hne
  | cons c line ih =>
      obtain ⟨hc, hline⟩ := List.forall_mem_cons.mp h
      rw [splitlines, Bool.and_false, if_neg Bool.false_ne_true, if_neg (by rw [hc]; exact Bool.false_ne_true)]
      by_cases hlast : line = []
      · rw [hlast]
        rfl
      · rw [ih hlast hline]

theorem IsText.ne_nil {text : PyStr} {fields : Fields} (h : IsText text fields) : text ≠ [] := by
  rintro rfl
  obtain ⟨rest, hrest⟩ := h.brace
  cases hrest []

theorem parseLines_uncut (texts : List (PyStr × Fields)) (h : ∀ t ∈ texts, IsText t.1 t.2) (hne : texts ≠ [])
    (hloads : ∀ t ∈ texts, Json.loads rt.nesting t.1 = .ok (.obj t.2)) (huncut : ∀ t ∈ texts, Uncut t.1)
      (number : Nat) :
    parseLines rt number (splitlines false (lineText (texts.map Prod.fst))) = .ok (texts.map Prod.snd) := by
  induction texts generalizing number with
  | nil => exact absurd rfl hne
  | cons t texts ih =>
      obtain ⟨ht, htexts⟩ := List.forall_mem_cons.mp h
      obtain ⟨hload, hloads⟩ := List.forall_mem_cons.mp hloads
      obtain ⟨hcut, huncut⟩ := List.forall_mem_cons.mp huncut
      have hline := (parseLine_eq_ok rt number t.1 t.2).mpr hload
      by_cases hlast : texts = []
      · subst hlast
        have hone : splitlines false (lineText ([t].map Prod.fst)) = [t.1] := splitlines_uncut t.1 ht.ne_nil hcut
        rw [hone, parseLines, hline]
        rfl
      · rw [List.map_cons, lineText_cons _ _ (by simpa using hlast), splitlines_line _ _ hcut, parseLines, hline,
          ok_bind, ih htexts hlast hloads huncut, ok_bind, List.map_cons]

theorem boundary_breaks (c : CodePoint) (hc : isLineBoundary c = true) (hline : c ≠ cp '\n' ∧ c ≠ cp '\r') :
    isNumberChar c = false ∧ Json.isWs c = false := by
  have hdigit : c.isDigit = false := by
    by_contra hne
    simp only [CodePoint.isDigit, Bool.not_eq_false, Bool.and_eq_true, decide_eq_true_eq] at hne
    simp only [isLineBoundary, Bool.or_eq_true, Bool.and_eq_true, decide_eq_true_eq] at hc
    omega
  have hne : ∀ d : CodePoint, isLineBoundary d = false → Decidable.decide (c = d) = false := by
    intro d hd
    refine decide_eq_false ?_
    rintro rfl
    rw [hd] at hc
    cases hc
  constructor
  · rw [isNumberChar, hdigit, hne (cp '-') (by decide), hne (cp '+') (by decide), hne (cp '.') (by decide),
      hne (cp 'e') (by decide), hne (cp 'E') (by decide)]
    rfl
  · rw [Json.isWs, hne (cp ' ') (by decide), hne (cp '\t') (by decide), decide_eq_false hline.1,
      decide_eq_false hline.2]
    rfl

-- An object does not end before its text does.
theorem loads_before_cut (limit : Nat) (line rest : PyStr) (c : CodePoint) (fields : Fields)
    (htext : IsText (line ++ c :: rest) fields) (hc : isLineBoundary c = true)
    (hloads : Json.loads limit (line ++ c :: rest) = .ok (.obj fields)) (found : Fields) :
    Json.loads limit line ≠ .ok (.obj found) := by
  intro hfound
  obtain ⟨pre, core, post, rfl, hpre, hpost, hcore⟩ := Json.loads_obj limit line found hfound
  obtain ⟨hnumber, hws⟩ := boundary_breaks c hc (htext.line c (by simp))
  have hbreaks : Json.Breaks (c :: rest) := fun d hd => by
    obtain rfl := Option.some.inj hd
    exact hnumber
  have hwhole := hcore.loads pre (post ++ c :: rest) hpre (breaks_append post _ hpost hbreaks)
  rw [skipWs_blank post _ hpost, Json.skipWs_cons c rest hws, if_neg (List.cons_ne_nil _ _),
    ← List.append_assoc] at hwhole
  rw [hwhole] at hloads
  cases hloads

-- A line that is cut inside an object cannot be parsed.
theorem uncut_of_parseLines (texts : List (PyStr × Fields)) (h : ∀ t ∈ texts, IsText t.1 t.2)
    (hloads : ∀ t ∈ texts, Json.loads rt.nesting t.1 = .ok (.obj t.2)) (number : Nat) (records : List Fields)
    (hparse : parseLines rt number (splitlines false (lineText (texts.map Prod.fst))) = .ok records) :
    ∀ t ∈ texts, Uncut t.1 := by
  induction texts generalizing number records with
  | nil => nofun
  | cons t texts ih =>
      obtain ⟨ht, htexts⟩ := List.forall_mem_cons.mp h
      obtain ⟨hload, hloads⟩ := List.forall_mem_cons.mp hloads
      by_cases hcut : Uncut t.1
      · refine List.forall_mem_cons.mpr ⟨hcut, ?_⟩
        by_cases hlast : texts = []
        · rw [hlast]
          nofun
        rw [List.map_cons, lineText_cons _ _ (by simpa using hlast), splitlines_line _ _ hcut] at hparse
        obtain ⟨record, -, hrest⟩ := (bind_eq_ok _ _ _).mp hparse
        obtain ⟨others, hothers, -⟩ := (bind_eq_ok _ _ _).mp hrest
        exact ih htexts hloads (number + 1) others hothers
      · obtain ⟨line, c, rest, htext, hline, hc⟩ := exists_cut t.1 hcut
        have hcr : c ≠ cp '\r' := (ht.line c (by rw [htext]; simp)).2
        obtain ⟨more, hmore⟩ := joinWith_cons [cp '\n'] t.1 (texts.map Prod.fst)
        rw [List.map_cons, lineText, hmore, htext, List.append_assoc, List.cons_append,
          splitlines_boundary line _ c hline hc hcr] at hparse
        obtain ⟨record, hrecord, -⟩ := (bind_eq_ok _ _ _).mp hparse
        rw [parseLine_eq_ok] at hrecord
        rw [htext] at ht hload
        exact absurd hrecord (loads_before_cut rt.nesting line rest c t.2 ht hc hload record)

end Lines

section Formats

variable (rt : Runtime)

-- The lines without the white space around them.
theorem parseJsonLines_lines (texts : List (PyStr × Fields)) (h : ∀ t ∈ texts, IsText t.1 t.2) (hne : texts ≠ [])
    (hloads : ∀ t ∈ texts, Json.loads rt.nesting t.1 = .ok (.obj t.2)) (raw : PyStr)
    (hraw : strip raw = lineText (texts.map Prod.fst)) :
    parseJsonLines rt raw = .ok (texts.map Prod.snd) ↔ texts.length = 1 ∨ ∀ t ∈ texts, Uncut t.1 := by
  obtain ⟨t, others, rfl⟩ := List.exists_cons_of_ne_nil hne
  have hload := hloads t List.mem_cons_self
  have hblank : lineText ((t :: others).map Prod.fst) ≠ [] := by
    obtain ⟨more, hmore⟩ := joinWith_cons [cp '\n'] t.1 (others.map Prod.fst)
    rw [List.map_cons, lineText, hmore]
    exact List.append_ne_nil_of_left_ne_nil (h t List.mem_cons_self).ne_nil more
  unfold parseJsonLines
  rw [hraw]
  dsimp only
  rw [if_neg hblank]
  by_cases hlast : others = []
  · subst hlast
    have hone : loadsText rt (lineText ([t].map Prod.fst)) = .ok (.obj t.2) := (loadsText_eq_ok rt _ _).mpr hload
    rw [hone]
    exact iff_of_true rfl (.inl rfl)
  · obtain ⟨msg, left, hwhole⟩ := loads_lineText rt t others h hlast hload
    have hlength : (t :: others).length ≠ 1 := by
      have hpos := List.length_pos_of_ne_nil hlast
      rw [List.length_cons]
      omega
    rw [hwhole]
    constructor
    · intro hparse
      exact .inr (uncut_of_parseLines rt (t :: others) h hloads 1 _ hparse)
    · rintro (hone | huncut)
      · exact absurd hone hlength
      · exact parseLines_uncut rt (t :: others) h hne hloads huncut 1

theorem sameText_all (lines texts : List (PyStr × Fields)) (h : List.Forall₂ SameText lines texts) :
    lines.map Prod.snd = texts.map Prod.snd ∧ lines.length = texts.length ∧ (∀ t ∈ lines, IsText t.1 t.2) ∧
      ((∀ t ∈ lines, Uncut t.1) ↔ ∀ t ∈ texts, Uncut t.1) ∧
      ∀ limit, (∀ t ∈ texts, Json.loads limit t.1 = .ok (.obj t.2)) →
        ∀ t ∈ lines, Json.loads limit t.1 = .ok (.obj t.2) := by
  induction h with
  | nil => simp
  | cons hfirst hrest ih =>
      obtain ⟨hfields, hlength, htext, huncut, hloads⟩ := ih
      refine ⟨?_, ?_, List.forall_mem_cons.mpr ⟨hfirst.isText, htext⟩, ?_, fun limit hall => ?_⟩
      · rw [List.map_cons, List.map_cons, hfirst.fields, hfields]
      · rw [List.length_cons, List.length_cons, hlength]
      · rw [List.forall_mem_cons, List.forall_mem_cons, hfirst.uncut, huncut]
      · obtain ⟨hone, hothers⟩ := List.forall_mem_cons.mp hall
        exact List.forall_mem_cons.mpr ⟨hfirst.loads limit hone, hloads limit hothers⟩

-- What is loaded with less room is the object, and it is loaded with more room.
theorem IsText.loads {text : PyStr} {fields : Fields} (h : IsText text fields) (limit limit' : Nat)
    (hle : limit ≤ limit') (j : Json) (hloads : Json.loads limit text = .ok j) :
    Json.loads limit text = .ok (.obj fields) ∧ Json.loads limit' text = .ok (.obj fields) := by
  rcases h.reads limit with ⟨hsame, -⟩ | ⟨hdeep, -⟩
  · refine ⟨hsame, ?_⟩
    obtain ⟨pre, core, post, rfl, hpre, hpost, hcore⟩ := Json.loads_obj limit text fields hsame
    have hend : Json.skipWs post = [] := List.dropWhile_eq_nil_iff.mpr hpost
    rw [(hcore.mono hle).loads pre post hpre (Json.breaks_of_ws post hpost), if_pos hend]
  · rw [hdeep] at hloads
    cases hloads

-- Both formats give the objects when there is room for the array and no line is cut.
theorem formats_agree_iff (texts : List (PyStr × Fields)) (hne : texts ≠ []) (h : ∀ t ∈ texts, IsText t.1 t.2) :
    (parseJsonLines rt (lineText (texts.map Prod.fst)) = .ok (texts.map Prod.snd) ∧
      parseJsonLines rt (arrayText (texts.map Prod.fst)) = .ok (texts.map Prod.snd)) ↔
      (∀ t ∈ texts, ∃ j, Json.loads (rt.nesting - 1) t.1 = .ok j) ∧
        (texts.length = 1 ∨ ∀ t ∈ texts, ∀ c ∈ t.1, isLineBoundary c = false) := by
  have harray : parseJsonLines rt (arrayText (texts.map Prod.fst)) = .ok (texts.map Prod.snd) ↔
      ∀ t ∈ texts, ∃ j, Json.loads (rt.nesting - 1) t.1 = .ok j := by
    rw [parseJsonLines_array rt texts h hne]
    constructor
    · intro hparse t ht
      split at hparse
      · next hall => exact ⟨_, hall t ht⟩
      · cases hparse
    · intro hall
      refine if_pos fun t ht => ?_
      obtain ⟨j, hj⟩ := hall t ht
      exact ((h t ht).loads _ _ (Nat.sub_le _ _) j hj).1
  rw [harray]
  obtain ⟨lines, hsame, hstrip⟩ := strip_lineText texts h hne
  obtain ⟨hfields, hlength, htext, huncut, hloads⟩ := sameText_all lines texts hsame
  have hlines : lines ≠ [] := by
    rintro rfl
    exact hne (List.forall₂_nil_left_iff.mp hsame)
  -- with room for the array there is room for the lines
  have hformat : (∀ t ∈ texts, ∃ j, Json.loads (rt.nesting - 1) t.1 = .ok j) →
      (parseJsonLines rt (lineText (texts.map Prod.fst)) = .ok (texts.map Prod.snd) ↔
        texts.length = 1 ∨ ∀ t ∈ texts, Uncut t.1) := by
    intro hall
    have hload := hloads rt.nesting fun t ht => by
      obtain ⟨j, hj⟩ := hall t ht
      exact ((h t ht).loads _ _ (Nat.sub_le _ _) j hj).2
    rw [← hfields, parseJsonLines_lines rt lines htext hlines hload _ hstrip, hlength, huncut]
  constructor
  · rintro ⟨hparse, hall⟩
    exact ⟨hall, (hformat hall).mp hparse⟩
  · rintro ⟨hall, hcut⟩
    exact ⟨(hformat hall).mpr hcut, hall⟩

def sampleRuntime : Runtime := ⟨fun _ => zeroDigest, fun _ => false, 1000⟩

def sampleText (name value : PyStr) : PyStr × Fields :=
  (cp '{' :: (cp '"' :: (name ++ py "\":\"" ++ value ++ [cp '"', cp '}'])), [(name, .str value)])

def sampleTexts : List (PyStr × Fields) :=
  [sampleText (py "Service") (py "worker"), sampleText (py "Service") (py "api")]

theorem isText_of_loads (t : PyStr × Fields) (hline : t.1.all (fun c => c ≠ cp '\n' && c ≠ cp '\r') = true)
    (h : Json.loads 9 t.1 = .ok (.obj t.2)) : IsText t.1 t.2 := by
  refine ⟨fun c hc => ?_, 9, h⟩
  simpa using List.all_eq_true.mp hline c hc

-- The services of the test.
theorem formats_of_services :
    parseJsonLines sampleRuntime (lineText (sampleTexts.map Prod.fst)) = .ok (sampleTexts.map Prod.snd) ∧
      parseJsonLines sampleRuntime (arrayText (sampleTexts.map Prod.fst)) = .ok (sampleTexts.map Prod.snd) := by
  have htext : ∀ t ∈ sampleTexts, IsText t.1 t.2 :=
    List.forall_mem_cons.mpr ⟨isText_of_loads _ (by decide +kernel) (by decide +kernel),
      List.forall_mem_cons.mpr ⟨isText_of_loads _ (by decide +kernel) (by decide +kernel), nofun⟩⟩
  have hloads : ∀ t ∈ sampleTexts, Json.loads 999 t.1 = .ok (.obj t.2) := by decide +kernel
  have huncut : ∀ t ∈ sampleTexts, t.1.all (fun c => !isLineBoundary c) = true := by decide +kernel
  refine (formats_agree_iff sampleRuntime sampleTexts (List.cons_ne_nil _ _) htext).mpr ⟨?_, .inr ?_⟩
  · exact fun t ht => ⟨_, hloads t ht⟩
  · exact fun t ht c hc => by simpa using List.all_eq_true.mp (huncut t ht) c hc

-- A value with the separator U+2028 in it.
def brokenTexts : List (PyStr × Fields) :=
  [sampleText (py "Name") (py "a" ++ [chr 0x2028] ++ py "b"), sampleText (py "Service") (py "api")]

theorem separator_breaks_lines : (∀ t ∈ brokenTexts, IsText t.1 t.2) ∧
    parseJsonLines sampleRuntime (lineText (brokenTexts.map Prod.fst)) =
      .error (.controlError (py "Invalid Docker JSON on line 1.")) ∧
    parseJsonLines sampleRuntime (arrayText (brokenTexts.map Prod.fst)) = .ok (brokenTexts.map Prod.snd) := by
  refine ⟨?_, by decide +kernel, by decide +kernel⟩
  exact List.forall_mem_cons.mpr ⟨isText_of_loads _ (by decide +kernel) (by decide +kernel),
    List.forall_mem_cons.mpr ⟨isText_of_loads _ (by decide +kernel) (by decide +kernel), nofun⟩⟩

end Formats

end V91Core.Control
