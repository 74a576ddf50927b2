import V91Core.Feedback.Record
import V91Core.Json.Cut
import V91Core.Json.Loads
import V91Core.Python.ReadText

namespace V91Core.Feedback

open V91Core.Python

section Model

variable (rt : Runtime)

-- `append_feedback`, with the content of the file afterwards: it is opened before the
-- record is written, and a line is written as a whole or not at all.
def appendFeedback (record : List (PyData × PyData)) (file : Option Bytes) : Except PyExc Unit × Bytes :=
  match ((PyData.dict record).dumps rt .record >>= fun text => encodeUtf8 (text ++ [cp '\n'])) with
  | .ok line => (.ok (), file.getD [] ++ line)
  | .error e => (.error e, file.getD [])

-- The records are appended one by one, up to the first failure.
def appendAll : List (List (PyData × PyData)) → Option Bytes → Except PyExc (Option Bytes)
  | [], file => .ok file
  | record :: records, file =>
      match appendFeedback rt record file with
      | (.ok (), content) => appendAll records (some content)
      | (.error e, _) => .error e

structure Counts where
  total : Nat
  labels : List (PyStr × Nat)

def Counts.start : Counts := ⟨0, allowedLabels.map fun label => (label, 0)⟩

def Counts.add (label : PyStr) (counts : Counts) : Counts :=
  ⟨counts.total + 1, counts.labels.map fun entry => (entry.1, if entry.1 = label then entry.2 + 1 else entry.2)⟩

-- The label of a record in line `number`.
def labelOf (number : Nat) (record : Json) : Except PyExc PyStr :=
  match record with
  | .obj fields =>
      match Json.lookup (py "label") fields with
      | some (.str label) =>
          if label ∈ allowedLabels then .ok label
          else .error (.valueError (py "Ungültiges Label in Zeile " ++ natText number))
      | _ => .error (.valueError (py "Ungültiges Label in Zeile " ++ natText number))
  | _ => .error (.valueError (py "Feedbackdatensatz in Zeile " ++ natText number ++ py " muss ein JSON-Objekt sein"))

-- Only a `JSONDecodeError` gets a message of its own.
def countLine (number : Nat) (line : PyStr) (counts : Counts) : Except PyExc Counts :=
  if strip line = [] then .ok counts
  else
    match loadsText rt line with
    | .error (.jsonDecode _ _) => .error (.valueError (py "Ungültiger Feedbackdatensatz in Zeile " ++ natText number))
    | .error e => .error e
    | .ok record => (labelOf number record).map fun label => counts.add label

def countLines : Nat → List PyStr → Counts → Except PyExc Counts
  | _, [], counts => .ok counts
  | number, line :: lines, counts => do
      let counts ← countLine rt number line counts
      countLines (number + 1) lines counts

def summary (counts : Counts) : List (PyStr × Json) :=
  [(py "schema_version", .str (py "1.0")), (py "total_records", .int counts.total),
    (py "label_counts", .obj (counts.labels.map fun entry => (entry.1, .int entry.2))),
    (py "training_status", .str (py "DATASET_ONLY_NO_MODEL_TRAINED")),
    (py "production_policy_changed", .bool false)]

def summarizeFeedback (file : Option Bytes) : Except PyExc (List (PyStr × Json)) := do
  let content ← ofOption .fileNotFound file
  let text ← readText content
  let counts ← countLines rt 1 (splitlines false text) .start
  .ok (summary counts)

end Model

section Append

variable (rt : Runtime)

-- The line that a record was written as.
def WrittenAs (document : Json.Dict) (text : PyStr) : Prop :=
  Json.encode .record rt.nesting document.json = .ok text ∧
    Json.AllChars (fun c => c.isSurrogate = false) document.json

theorem appendFeedback_eq_ok (document : Json.Dict) (file : Option Bytes) (content : Bytes)
    (h : appendFeedback rt (PyData.ofFields document.fields) file = (.ok (), content)) :
    ∃ text line, WrittenAs rt document text ∧ utf8Encode (text ++ [cp '\n']) = some line ∧
      content = file.getD [] ++ line := by
  unfold appendFeedback at h
  split at h
  · next line hline =>
      obtain ⟨text, htext, hline⟩ := (bind_eq_ok _ _ _).mp hline
      rw [show PyData.dict (PyData.ofFields document.fields) = PyData.ofJson document.json from rfl,
        PyData.dumps_ofJson, dumps_eq_ok] at htext
      rw [encodeUtf8_eq_ok] at hline
      have hencodable : ∀ c ∈ text ++ [cp '\n'], c.isSurrogate = false := by
        rw [← utf8Encode_isSome, hline]
        rfl
      refine ⟨text, line, ⟨htext, ?_⟩, hline, (Prod.ext_iff.mp h).2.symm⟩
      rw [← Json.encode_chars _ isSurrogate_of_ascii .record rfl _ _ text htext]
      exact fun c hc => hencodable c (List.mem_append_left _ hc)
  · cases (Prod.ext_iff.mp h).1

def fileText (texts : List PyStr) : PyStr := texts.flatMap fun text => text ++ [cp '\n']

-- What a log holds once the records are in it.
theorem appendAll_eq_ok (documents : List Json.Dict) (file after : Option Bytes) (before : PyStr)
    (hbefore : utf8Encode before = some (file.getD []))
    (h : appendAll rt (documents.map fun document => PyData.ofFields document.fields) file = .ok after) :
    ∃ texts, List.Forall₂ (WrittenAs rt) documents texts ∧
      utf8Encode (before ++ fileText texts) = some (after.getD []) ∧
      (after.isSome = true ↔ documents ≠ [] ∨ file.isSome = true) := by
  induction documents generalizing file before with
  | nil =>
      obtain rfl := Except.ok.inj h
      refine ⟨[], .nil, ?_, by simp⟩
      rw [fileText, List.flatMap_nil, List.append_nil]
      exact hbefore
  | cons document documents ih =>
      rw [List.map_cons, appendAll] at h
      split at h
      · next content happend =>
          obtain ⟨text, line, hwritten, hline, rfl⟩ := appendFeedback_eq_ok rt document file content happend
          have hnext := utf8Encode_append before (text ++ [cp '\n']) _ line hbefore hline
          obtain ⟨texts, htexts, hencode, hsome⟩ := ih (some (file.getD [] ++ line)) _ hnext h
          refine ⟨text :: texts, .cons hwritten htexts, ?_, by simp [hsome]⟩
          rw [fileText, List.flatMap_cons, ← List.append_assoc]
          exact hencode
      · cases h

end Append

section Lines

-- The line boundaries that JSON does not escape.
def isSeparator (c : CodePoint) : Bool := c.val = 0x85 || c.val = 0x2028 || c.val = 0x2029

theorem isLineBoundary_eq (c : CodePoint) (h : 0x20 ≤ c.val) : isLineBoundary c = isSeparator c := by
  have hlow : (decide (c.val ≤ 0x0D)) = false := decide_eq_false (by omega)
  have hmiddle : (decide (c.val ≤ 0x1E)) = false := decide_eq_false (by omega)
  rw [isLineBoundary, isSeparator, hlow, hmiddle, Bool.and_false, Bool.and_false, Bool.false_or, Bool.false_or]

theorem separator_high (c : CodePoint) (h : isSeparator c = true) : 0x80 ≤ c.val := by
  simp only [isSeparator, Bool.or_eq_true, decide_eq_true_eq] at h
  omega

theorem isSeparator_ascii (c : CodePoint) (h : c.val < 0x80) : isSeparator c = false := by
  by_contra hne
  have := separator_high c (by simpa using hne)
  omega

-- No text of the record contains one of these characters.
def Unbroken (document : Json.Dict) : Prop := Json.AllChars (fun c => isSeparator c = false) document.json

variable (rt : Runtime)

theorem WrittenAs.printable {document : Json.Dict} {text : PyStr} (h : WrittenAs rt document text) :
    ∀ c ∈ text, 0x20 ≤ c.val :=
  Json.encode_printable .record _ _ text h.1

theorem WrittenAs.unbroken_iff {document : Json.Dict} {text : PyStr} (h : WrittenAs rt document text) :
    Unbroken document ↔ ∀ c ∈ text, isLineBoundary c = false := by
  rw [Unbroken, ← Json.encode_chars _ isSeparator_ascii .record rfl _ _ text h.1]
  exact forall₂_congr fun c hc => by rw [isLineBoundary_eq c (h.printable rt c hc)]

theorem WrittenAs.start {document : Json.Dict} {text : PyStr} (h : WrittenAs rt document text) :
    ∃ rest, text = cp '{' :: rest :=
  Json.encode_obj_start .record _ _ text h.1

-- Reading a record back.
theorem countLine_written (document : Json.Dict) (text label : PyStr) (h : WrittenAs rt document text)
    (hlabel : Json.lookup (py "label") document.fields = some (.str label)) (hallowed : label ∈ allowedLabels)
    (number : Nat) (counts : Counts) : countLine rt number text counts = .ok (counts.add label) := by
  obtain ⟨rest, hstart⟩ := h.start rt
  have hblank : strip text ≠ [] := by
    rw [hstart]
    exact strip_brace_ne_nil rest
  obtain ⟨loaded, hloads, horder⟩ :=
    Json.loads_dumps rt .record document h.2 text ((dumps_eq_ok _ _ _ _).mpr h.1)
  have hfields : loaded.fields = Json.sortKeys (Json.normFields document.fields) := by
    exact Json.obj.inj horder
  have hlookup : Json.lookup (py "label") loaded.fields = some (.str label) := by
    rw [hfields, Json.lookup_norm _ _ document.wf.1, hlabel]
    rfl
  rw [countLine, if_neg hblank, hloads]
  simp only [Json.Dict.json, labelOf, hlookup, if_pos hallowed, Except.map]

-- What a run that returns has made of each line.
theorem countLines_loads (lines : List PyStr) (number : Nat) (counts after : Counts)
    (h : countLines rt number lines counts = .ok after) (line : PyStr) (hline : line ∈ lines) :
    strip line = [] ∨ ∃ j, Json.loads rt.nesting line = .ok j := by
  induction lines generalizing number counts with
  | nil => cases hline
  | cons first lines ih =>
      obtain ⟨next, hfirst, hrest⟩ := (bind_eq_ok _ _ _).mp h
      rcases List.mem_cons.mp hline with rfl | hline
      · unfold countLine at hfirst
        split at hfirst
        · next hblank => exact .inl hblank
        · split at hfirst
          · cases hfirst
          · cases hfirst
          · next j hloads => exact .inr ⟨j, (loadsText_eq_ok _ _ _).mp hloads⟩
      · exact ih (number + 1) next hrest hline

end Lines

section Run

variable (rt : Runtime)

theorem splitlines_fileText (documents : List Json.Dict) (texts : List PyStr)
    (h : List.Forall₂ (WrittenAs rt) documents texts) (hunbroken : ∀ document ∈ documents, Unbroken document) :
    splitlines false (fileText texts) = texts := by
  induction h with
  | nil => rfl
  | cons hfirst hrest ih =>
      obtain ⟨hunbroken, hothers⟩ := List.forall_mem_cons.mp hunbroken
      rw [fileText, List.flatMap_cons, splitlines_line _ _ ((hfirst.unbroken_iff rt).mp hunbroken)]
      exact congrArg _ (ih hothers)

-- What is before the cut cannot be loaded.
theorem WrittenAs.cut {document : Json.Dict} {text : PyStr} (h : WrittenAs rt document text)
    (hbroken : ¬Unbroken document) (others : PyStr) :
    ∃ line lines, splitlines false (text ++ [cp '\n'] ++ others) = line :: lines ∧ strip line ≠ [] ∧
      ∀ j, Json.loads rt.nesting line ≠ .ok j := by
  obtain ⟨line, c, rest, rfl, hline, hc⟩ := exists_cut text fun hall => hbroken ((h.unbroken_iff rt).mpr hall)
  have hprintable := h.printable rt c (by simp)
  have hhigh := separator_high c (by rw [← isLineBoundary_eq c hprintable]; exact hc)
  have hcr : c ≠ cp '\r' := by
    rintro rfl
    revert hhigh
    decide
  refine ⟨line, splitlines false (rest ++ ([cp '\n'] ++ others)), ?_, ?_, fun j =>
    Json.loads_cut .record rfl _ _ _ j line rest c hhigh h.1⟩
  · rw [List.append_assoc, List.append_assoc, List.cons_append]
    exact splitlines_boundary line _ c hline hc hcr
  · obtain ⟨tail, hstart⟩ := h.start rt
    cases line with
    | nil =>
        rw [(List.cons.inj hstart).1] at hhigh
        revert hhigh
        decide
    | cons d line =>
        rw [(List.cons.inj hstart).1]
        exact strip_brace_ne_nil line

-- A record with such a character leaves a line that cannot be read.
theorem broken_line (documents : List Json.Dict) (texts : List PyStr)
    (h : List.Forall₂ (WrittenAs rt) documents texts) (hbroken : ¬∀ document ∈ documents, Unbroken document) :
    ∃ line ∈ splitlines false (fileText texts), strip line ≠ [] ∧ ∀ j, Json.loads rt.nesting line ≠ .ok j := by
  induction h with
  | nil => exact absurd (fun document hmem => by cases hmem) hbroken
  | @cons document text documents texts hfirst hrest ih =>
      rw [fileText, List.flatMap_cons]
      by_cases hunbroken : Unbroken document
      · obtain ⟨line, hline, hbad⟩ := ih fun hall => hbroken (List.forall_mem_cons.mpr ⟨hunbroken, hall⟩)
        refine ⟨line, ?_, hbad⟩
        rw [splitlines_line _ _ ((hfirst.unbroken_iff rt).mp hunbroken)]
        exact List.mem_cons_of_mem _ hline
      · obtain ⟨line, lines, hlines, hbad⟩ := hfirst.cut rt hunbroken (fileText texts)
        refine ⟨line, ?_, hbad⟩
        rw [fileText] at hlines
        rw [hlines]
        exact List.mem_cons_self

def Counts.addAll (labels : List PyStr) (counts : Counts) : Counts :=
  ⟨counts.total + labels.length, counts.labels.map fun entry => (entry.1, entry.2 + labels.count entry.1)⟩

theorem addAll_add (label : PyStr) (labels : List PyStr) (counts : Counts) :
    (counts.add label).addAll labels = counts.addAll (label :: labels) := by
  have hentry : ∀ entry : PyStr × Nat, (if entry.1 = label then entry.2 + 1 else entry.2) + labels.count entry.1 =
      entry.2 + (label :: labels).count entry.1 := by
    intro entry
    rw [List.count_cons]
    by_cases h : entry.1 = label
    · rw [if_pos h, if_pos (by simp [h])]
      omega
    · rw [if_neg h, if_neg (by simpa using Ne.symm h)]
      omega
  simp only [Counts.add, Counts.addAll, List.map_map, List.length_cons, Counts.mk.injEq]
  refine ⟨by omega, List.map_congr_left fun entry _ => ?_⟩
  exact Prod.ext rfl (hentry entry)

-- The label of a record.
def recordLabel (document : Json.Dict) : PyStr :=
  match Json.lookup (py "label") document.fields with
  | some (.str label) => label
  | _ => []

theorem countLines_written (documents : List Json.Dict) (texts : List PyStr)
    (h : List.Forall₂ (WrittenAs rt) documents texts) (hreturned : ∀ document ∈ documents, Returned rt document)
    (number : Nat) (counts : Counts) :
    countLines rt number texts counts = .ok (counts.addAll (documents.map recordLabel)) := by
  induction h generalizing number counts with
  | nil =>
      have hzero : counts.addAll [] = counts := by
        simp [Counts.addAll]
      rw [List.map_nil, hzero]
      rfl
  | @cons document text documents texts hfirst hrest ih =>
      obtain ⟨hdocument, hothers⟩ := List.forall_mem_cons.mp hreturned
      obtain ⟨label, hallowed, hlabel⟩ := hdocument.label
      have hrecord : recordLabel document = label := by simp only [recordLabel, hlabel]
      rw [countLines, countLine_written rt document text label hfirst hlabel hallowed]
      rw [List.map_cons, hrecord, ← addAll_add]
      exact ih hothers (number + 1) (counts.add label)

end Run

section Main

variable (rt : Runtime)

-- The file is read as it was written.
theorem readText_fileText (documents : List Json.Dict) (texts : List PyStr)
    (h : List.Forall₂ (WrittenAs rt) documents texts) (content : Bytes)
    (hcontent : utf8Encode (fileText texts) = some content) : readText content = .ok (fileText texts) := by
  have hchars : ∀ c ∈ fileText texts, 0x20 ≤ c.val ∨ c = cp '\n' := by
    clear hcontent
    induction h with
    | nil => simp [fileText]
    | cons hfirst hrest ih =>
        intro c hc
        rw [fileText, List.flatMap_cons, List.mem_append, List.mem_append, List.mem_singleton] at hc
        rcases hc with (hc | hc) | hc
        · exact .inl (hfirst.printable rt c hc)
        · exact .inr hc
        · exact ih c hc
  have hcr : cp '\r' ∉ fileText texts := by
    intro hmem
    rcases hchars _ hmem with h | h
    · revert h
      decide
    · revert h
      decide
  rw [readText_encode _ content hcontent, universalNewlines_id _ hcr]

-- What a summary of these records says.
def Summarizes (documents : List Json.Dict) (summary : List (PyStr × Json)) : Prop :=
  Json.lookup (py "total_records") summary = some (.int documents.length) ∧
    Json.lookup (py "label_counts") summary = some (.obj (allowedLabels.map fun label =>
      (label, .int (documents.countP fun document => recordLabel document = label))))

theorem summarizes_addAll (documents : List Json.Dict) :
    Summarizes documents (summary (Counts.start.addAll (documents.map recordLabel))) := by
  have hcount : ∀ label, (documents.map recordLabel).count label =
      documents.countP fun document => recordLabel document = label := by
    intro label
    rw [List.count_eq_countP, List.countP_map]
    exact List.countP_congr fun document _ => by simp
  constructor
  · have htotal : Json.lookup (py "total_records") (summary (Counts.start.addAll (documents.map recordLabel))) =
        some (.int (Counts.start.addAll (documents.map recordLabel)).total) := rfl
    rw [htotal, Counts.addAll, Counts.start, List.length_map, Nat.zero_add]
  · have hlabels : Json.lookup (py "label_counts") (summary (Counts.start.addAll (documents.map recordLabel))) =
        some (.obj ((Counts.start.addAll (documents.map recordLabel)).labels.map
          fun entry => (entry.1, .int entry.2))) := rfl
    rw [hlabels, Counts.addAll, Counts.start, List.map_map, List.map_map]
    refine congrArg (fun fields => some (Json.obj fields)) (List.map_congr_left fun label _ => ?_)
    simp only [Function.comp_apply, Nat.zero_add, hcount]

end Main

section Sample

def sampleRuntime : Runtime where
  sha256 _ := zeroDigest
  printable _ := true
  nesting := 100

def sampleTime : Audit.UtcTime where
  val := py "2026-07-01T12:00:00+00:00"
  property c hc := by
    have hall : (py "2026-07-01T12:00:00+00:00").all (fun c => 0x20 ≤ c.val && c.val < 0x7F) = true := by decide
    simpa using List.all_eq_true.mp hall c hc

def sampleRequest : Json.Dict := ⟨[(py "action_class", .str (py "read_only"))], ⟨by decide, trivial, trivial⟩⟩

def sampleSubmission (label note : PyStr) : Submission where
  caseId := .str (py "case-001")
  request := .ofJson sampleRequest.json
  decisionCode := .str (py "ALLOW_WITHIN_POLICY")
  actualAllowed := .bool true
  expectedAllowed := .bool true
  label := .str label
  reviewer := .str (py "human-reviewer")
  note := .str note

def sampleFields (label note : PyStr) : List (PyStr × Json) :=
  [(py "schema_version", .str (py "1.0")), (py "case_id", .str (py "case-001")),
    (py "recorded_at", .str sampleTime.val), (py "request", sampleRequest.json),
    (py "decision_code", .str (py "ALLOW_WITHIN_POLICY")), (py "actual_allowed", .bool true),
    (py "expected_allowed", .bool true), (py "label", .str label),
    (py "reviewer", .str (py "human-reviewer")), (py "note", .str note), (py "policy_change_applied", .bool false)]

def sampleDocument (label note : PyStr) : Json.Dict where
  fields := sampleFields label note
  wf := by
    have hkeys : ((sampleFields [] []).map Prod.fst).Nodup := by decide +kernel
    exact ⟨hkeys, trivial, trivial, trivial, sampleRequest.wf, trivial, trivial, trivial, trivial, trivial, trivial,
      trivial, trivial⟩

theorem sampleDocument_returned (label note : PyStr) (hlabel : label ∈ allowedLabels) (h : note.length ≤ 2000) :
    Returned sampleRuntime (sampleDocument label note) := by
  refine ⟨sampleTime, sampleSubmission label note, sampleRequest, rfl, ?_⟩
  have hcase : (PyData.str (py "case-001")).nonBlank?.isSome = true := by decide
  have hreviewer : (PyData.str (py "human-reviewer")).nonBlank?.isSome = true := by decide
  have hdecision : (PyData.str (py "ALLOW_WITHIN_POLICY")).nonBlank?.isSome = true := by decide
  rw [makeFeedbackRecord_eq_ok]
  refine ⟨⟨hcase, hreviewer, rfl, hdecision, rfl, ⟨label, hlabel, rfl⟩, rfl, rfl, ?_⟩, rfl⟩
  exact decide_eq_true h

theorem sampleDocument_unbroken (label note : PyStr) (hlabel : isAscii label = true) (hnote : isAscii note = true) :
    Unbroken (sampleDocument label note) := by
  have hplain : ∀ s : PyStr, isAscii s = true → ∀ c ∈ s, isSeparator c = false :=
    Json.ascii_chars _ isSeparator_ascii
  simp only [Unbroken, Json.Dict.json, sampleDocument, sampleFields, sampleRequest, Json.AllChars, Json.AllCharsFields,
    and_true, true_and]
  refine ⟨?_, ?_, ?_, ?_, ?_, ?_, ?_, ⟨?_, ?_⟩, ?_, ?_, ?_, ?_, ?_, ?_, ?_, ?_, ?_, ?_, ?_⟩
  all_goals
    refine hplain _ ?_
    first | exact hlabel | exact hnote | decide

def sampleDocuments : List Json.Dict :=
  [sampleDocument (py "correct_allow") (py "Expected behavior."),
    sampleDocument (py "false_deny") (py "The policy is too strict."),
    sampleDocument (py "correct_allow") []]

end Sample

end V91Core.Feedback
