import V91Core.Audit.Append
import V91Core.Python.Data

namespace V91Core.Feedback

open V91Core.Python

-- `sorted(ALLOWED_LABELS)`.
def allowedLabels : List PyStr :=
  [py "correct_allow", py "correct_deny", py "false_allow", py "false_deny", py "needs_review"]

-- The arguments of `make_feedback_record`.
structure Submission where
  caseId : PyData
  request : PyData
  decisionCode : PyData
  actualAllowed : PyData
  expectedAllowed : PyData
  label : PyData
  reviewer : PyData
  note : PyData

section Make

variable (rt : Runtime)

def check (ok : Bool) (msg : PyStr) : Except PyExc Unit := if ok then .ok () else .error (.valueError msg)

def isText : PyData → Bool
  | .str _ => true
  | _ => false

def isMapping : PyData → Bool
  | .dict _ => true
  | _ => false

def isShort (limit : Nat) : PyData → Bool
  | .str text => text.length ≤ limit
  | _ => true

def isNone : PyData → Bool
  | .none => true
  | _ => false

-- A label that is not hashable cannot be looked up.
def checkLabel (label : PyData) : Except PyExc Unit := do
  let key ← label.lookupKey
  if key.any (· ∈ allowedLabels) then .ok ()
  else do
    let text ← label.toStr rt
    .error (.valueError (py "Unbekanntes Feedbacklabel: " ++ text))

def checkSubmission (s : Submission) : Except PyExc Unit := do
  check s.caseId.nonBlank?.isSome (py "case_id muss eine nicht-leere Zeichenkette sein.")
  check s.reviewer.nonBlank?.isSome (py "reviewer muss eine nicht-leere Zeichenkette sein.")
  check (isMapping s.request) (py "request muss ein Objekt sein.")
  check s.decisionCode.nonBlank?.isSome (py "decision_code muss eine nicht-leere Zeichenkette sein.")
  check (isText s.note) (py "note muss eine Zeichenkette sein.")
  checkLabel rt s.label
  check s.actualAllowed.isBool (py "actual_allowed muss boolesch sein.")
  check (isNone s.expectedAllowed || s.expectedAllowed.isBool) (py "expected_allowed muss boolesch oder None sein.")
  check (isShort 2000 s.note) (py "note darf höchstens 2000 Zeichen enthalten.")

def feedbackRecord (now : Audit.UtcTime) (s : Submission) : List (PyData × PyData) :=
  [(.str (py "schema_version"), .str (py "1.0")), (.str (py "case_id"), s.caseId),
    (.str (py "recorded_at"), .str now.val), (.str (py "request"), s.request),
    (.str (py "decision_code"), s.decisionCode), (.str (py "actual_allowed"), s.actualAllowed),
    (.str (py "expected_allowed"), s.expectedAllowed), (.str (py "label"), s.label),
    (.str (py "reviewer"), s.reviewer), (.str (py "note"), s.note),
    (.str (py "policy_change_applied"), .bool false)]

def makeFeedbackRecord (now : Audit.UtcTime) (s : Submission) : Except PyExc (List (PyData × PyData)) := do
  checkSubmission rt s
  .ok (feedbackRecord now s)

end Make

section Accepted

variable (rt : Runtime)

theorem check_eq_ok (ok : Bool) (msg : PyStr) (done : Unit) : check ok msg = .ok done ↔ ok = true := by
  cases ok <;> simp [check]

theorem checkLabel_eq_ok (label : PyData) (done : Unit) :
    checkLabel rt label = .ok done ↔ ∃ text ∈ allowedLabels, label = .str text := by
  constructor
  · intro h
    obtain ⟨key, hkey, h⟩ := (bind_eq_ok _ _ _).mp h
    split at h
    · next hany =>
        cases key with
        | none => cases hany
        | some text =>
            have hmem : text ∈ allowedLabels := of_decide_eq_true hany
            refine ⟨text, hmem, ?_⟩
            cases label with
            | str s =>
                obtain rfl := Option.some.inj (Except.ok.inj hkey)
                rfl
            | _ =>
                unfold PyData.lookupKey at hkey
                split at hkey <;> cases hkey
    · obtain ⟨text, -, h⟩ := (bind_eq_ok _ _ _).mp h
      cases h
  · rintro ⟨text, hmem, rfl⟩
    refine (bind_eq_ok _ _ _).mpr ⟨some text, rfl, if_pos ?_⟩
    simpa using hmem

-- What is accepted.
structure Acceptable (s : Submission) : Prop where
  caseId : s.caseId.nonBlank?.isSome = true
  reviewer : s.reviewer.nonBlank?.isSome = true
  request : isMapping s.request = true
  decisionCode : s.decisionCode.nonBlank?.isSome = true
  note : isText s.note = true
  label : ∃ text ∈ allowedLabels, s.label = .str text
  actual : s.actualAllowed.isBool = true
  expected : (isNone s.expectedAllowed || s.expectedAllowed.isBool) = true
  short : isShort 2000 s.note = true

theorem makeFeedbackRecord_eq_ok (now : Audit.UtcTime) (s : Submission) (record : List (PyData × PyData)) :
    makeFeedbackRecord rt now s = .ok record ↔ Acceptable s ∧ feedbackRecord now s = record := by
  simp only [makeFeedbackRecord, checkSubmission, bind_eq_ok, check_eq_ok, checkLabel_eq_ok, exists_const,
    Except.ok.injEq]
  constructor
  · rintro ⟨⟨hcase, hreviewer, hrequest, hdecision, hnote, hlabel, hactual, hexpected, hshort⟩, hrecord⟩
    exact ⟨⟨hcase, hreviewer, hrequest, hdecision, hnote, hlabel, hactual, hexpected, hshort⟩, hrecord⟩
  · rintro ⟨⟨hcase, hreviewer, hrequest, hdecision, hnote, hlabel, hactual, hexpected, hshort⟩, hrecord⟩
    exact ⟨⟨hcase, hreviewer, hrequest, hdecision, hnote, hlabel, hactual, hexpected, hshort⟩, hrecord⟩

-- The dict is a record that was returned for a request that is JSON data.
def Returned (document : Json.Dict) : Prop :=
  ∃ (now : Audit.UtcTime) (s : Submission) (request : Json.Dict), s.request = .ofJson request.json ∧
    makeFeedbackRecord rt now s = .ok (PyData.ofFields document.fields)

theorem Returned.label (document : Json.Dict) (h : Returned rt document) :
    ∃ label ∈ allowedLabels, Json.lookup (py "label") document.fields = some (.str label) := by
  obtain ⟨now, s, request, -, hmake⟩ := h
  obtain ⟨hacceptable, hrecord⟩ := (makeFeedbackRecord_eq_ok rt now s _).mp hmake
  obtain ⟨label, hmem, hlabel⟩ := hacceptable.label
  refine ⟨label, hmem, ?_⟩
  have hget : PyData.get? (py "label") (feedbackRecord now s) = some s.label := rfl
  rw [hrecord, PyData.get?_ofFields, hlabel] at hget
  obtain ⟨value, hvalue, hstr⟩ := Option.map_eq_some_iff.mp hget
  rw [hvalue]
  cases value with
  | str text => rw [PyData.str.inj hstr]
  | _ => cases hstr

theorem nonBlank_isText (value : PyData) (h : value.nonBlank?.isSome = true) : ∃ text, value = .str text := by
  cases value with
  | str text => exact ⟨text, rfl⟩
  | _ => cases h

-- Every record for a JSON request is such a dict.
theorem makeFeedbackRecord_json (now : Audit.UtcTime) (s : Submission) (request : Json.Dict)
    (hrequest : s.request = .ofJson request.json) (record : List (PyData × PyData))
    (h : makeFeedbackRecord rt now s = .ok record) :
    ∃ document : Json.Dict, record = PyData.ofFields document.fields ∧ Returned rt document := by
  obtain ⟨hacceptable, rfl⟩ := (makeFeedbackRecord_eq_ok rt now s record).mp h
  obtain ⟨caseId, hcase⟩ := nonBlank_isText _ hacceptable.caseId
  obtain ⟨reviewer, hreviewer⟩ := nonBlank_isText _ hacceptable.reviewer
  obtain ⟨decisionCode, hdecision⟩ := nonBlank_isText _ hacceptable.decisionCode
  obtain ⟨label, -, hlabel⟩ := hacceptable.label
  obtain ⟨note, hnote⟩ : ∃ note, s.note = .str note := by
    cases hvalue : s.note with
    | str note => exact ⟨note, rfl⟩
    | _ => have := hacceptable.note; rw [hvalue] at this; cases this
  obtain ⟨actual, hactual⟩ : ∃ actual, s.actualAllowed = .bool actual := by
    cases hvalue : s.actualAllowed with
    | bool actual => exact ⟨actual, rfl⟩
    | _ => have := hacceptable.actual; rw [hvalue] at this; cases this
  obtain ⟨expected, hexpected, hwf⟩ : ∃ expected, s.expectedAllowed = .ofJson expected ∧ Json.Wf expected := by
    cases hvalue : s.expectedAllowed with
    | none => exact ⟨.null, rfl, trivial⟩
    | bool expected => exact ⟨.bool expected, rfl, trivial⟩
    | _ => have := hacceptable.expected; rw [hvalue] at this; cases this
  have hkeys : [py "schema_version", py "case_id", py "recorded_at", py "request", py "decision_code",
      py "actual_allowed", py "expected_allowed", py "label", py "reviewer", py "note",
      py "policy_change_applied"].Nodup := by decide +kernel
  let document : Json.Dict := ⟨[(py "schema_version", .str (py "1.0")), (py "case_id", .str caseId),
    (py "recorded_at", .str now.val), (py "request", request.json), (py "decision_code", .str decisionCode),
    (py "actual_allowed", .bool actual), (py "expected_allowed", expected), (py "label", .str label),
    (py "reviewer", .str reviewer), (py "note", .str note), (py "policy_change_applied", .bool false)],
    ⟨hkeys, trivial, trivial, trivial, request.wf, trivial, trivial, hwf, trivial, trivial, trivial, trivial, trivial⟩⟩
  have hdocument : feedbackRecord now s = PyData.ofFields document.fields := by
    simp only [feedbackRecord, hcase, hrequest, hdecision, hactual, hexpected, hlabel, hreviewer, hnote]
    rfl
  exact ⟨document, hdocument, now, s, request, hrequest, hdocument ▸ h⟩

end Accepted

end V91Core.Feedback
