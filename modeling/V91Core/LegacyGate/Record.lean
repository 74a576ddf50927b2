import V91Core.Effect.Eval
import V91Core.Python.Exc

namespace V91Core.LegacyGate

open V91Core.Python V91Core.Effect

abbrev Fields := List (PyStr × Json)

inductive Decision where
  | unknown
  | rejected
  | blocked
  | needsReform
  | ready
deriving DecidableEq

def Decision.name : Decision → PyStr
  | .unknown => py "UNKNOWN"
  | .rejected => py "REJECTED"
  | .blocked => py "BLOCKED"
  | .needsReform => py "NEEDS_REFORM"
  | .ready => py "READY"

-- What `evaluate_record` returns. The list is `missing_fields` or `failed_questions`.
structure Evaluation where
  decision : Decision
  reason : PyStr
  listed : Option (List PyStr)
deriving DecidableEq

def requiredQuestions : List PyStr := [py "q1", py "q2", py "q3", py "q4", py "q5", py "q6", py "q7"]

def requiredFields : List PyStr :=
  [py "change_id", py "scope", py "owner", py "authorized", py "irreversible", py "baseline", py "evidence",
    py "legal_review", py "safety_review", py "tests", py "rollback", py "seven_questions"]

-- `_missing`.
def missing (container : Fields) (required : List PyStr) : List PyStr :=
  required.filter fun key => (Json.lookup key container).isNone

section Evaluate

variable (record : Fields)

-- `record[key]`.
def item (key : String) : Except PyExc Json := subscript (.obj record) (py key)

-- `isinstance(value, dict) and value.get(key) is True`.
def isApproved (key : String) : Json → Bool
  | .obj fields => Json.lookup (py key) fields = some (.bool true)
  | _ => false

def answer (decision : Decision) (reason : String) : Evaluation := ⟨decision, py reason, none⟩

def failedQuestions (questions : Fields) : List PyStr :=
  requiredQuestions.filter fun q => Json.lookup q questions ≠ some (.bool true)

-- The checks after those of the fields and the questions that are there.
def evaluateReviews (questions : Fields) : Except PyExc Evaluation := do
  let authorized ← item record "authorized"
  if authorized ≠ .bool true then .ok (answer .rejected "UNAUTHORIZED")
  else do
    let tests ← item record "tests"
    if !isApproved "regression_ok" tests then .ok (answer .blocked "REGRESSION_NOT_PROVEN")
    else do
      let legal ← item record "legal_review"
      let safety ← item record "safety_review"
      let rollback ← item record "rollback"
      if !isApproved "approved" legal then .ok (answer .blocked "LEGAL_REVIEW_MISSING")
      else if !isApproved "approved" safety then .ok (answer .blocked "SAFETY_REVIEW_MISSING")
      else if !isApproved "documented" rollback then .ok (answer .blocked "ROLLBACK_MISSING")
      else do
        let irreversible ← item record "irreversible"
        if irreversible = .bool true ∧ isApproved "independent_review" safety = false then
          .ok (answer .blocked "INDEPENDENT_REVIEW_REQUIRED")
        else if failedQuestions questions ≠ [] then
          .ok ⟨.needsReform, py "QUESTION_FAILED", some (failedQuestions questions)⟩
        else .ok (answer .ready "AUTHORIZED_CHANGE_ALLOWED")

def evaluateRecord : Except PyExc Evaluation :=
  if missing record requiredFields ≠ [] then
    .ok ⟨.unknown, py "MISSING_FIELDS", some (missing record requiredFields)⟩
  else do
    let questions ← item record "seven_questions"
    match questions with
    | .obj questions =>
        if missing questions requiredQuestions ≠ [] then
          .ok ⟨.unknown, py "MISSING_QUESTIONS", some (missing questions requiredQuestions)⟩
        else evaluateReviews record questions
    | _ => .ok ⟨.unknown, py "INVALID_QUESTIONS", some requiredQuestions⟩

end Evaluate

section Gate

variable (record : Fields)

-- The field is an object in which this key is literally true.
def Approved (field key : String) : Prop :=
  ∃ review, Json.lookup (py field) record = some (.obj review) ∧ Json.lookup (py key) review = some (.bool true)

def isEmpty : Json → Bool
  | .null | .str [] | .arr [] | .obj [] => true
  | _ => false

-- The field is there, and it is not empty.
def Filled (field : String) : Prop := ∃ value, Json.lookup (py field) record = some value ∧ isEmpty value = false

def AllAnswered : Prop :=
  ∃ questions, Json.lookup (py "seven_questions") record = some (.obj questions) ∧
    ∀ q ∈ requiredQuestions, Json.lookup q questions = some (.bool true)

-- The documented release gate.
structure GateMet : Prop where
  authorized : Json.lookup (py "authorized") record = some (.bool true)
  regression : Approved record "tests" "regression_ok"
  legal : Approved record "legal_review" "approved"
  safety : Approved record "safety_review" "approved"
  rollback : Approved record "rollback" "documented"
  questions : AllAnswered record
  baseline : Filled record "baseline"
  evidence : Filled record "evidence"
  independent : Json.lookup (py "irreversible") record = some (.bool false) ∨
    Approved record "safety_review" "independent_review"

-- What the code asks before it answers `READY`.
structure Passes : Prop where
  complete : ∀ field ∈ requiredFields, (Json.lookup field record).isSome = true
  authorized : Json.lookup (py "authorized") record = some (.bool true)
  regression : Approved record "tests" "regression_ok"
  legal : Approved record "legal_review" "approved"
  safety : Approved record "safety_review" "approved"
  rollback : Approved record "rollback" "documented"
  questions : AllAnswered record
  independent : Json.lookup (py "irreversible") record = some (.bool true) →
    Approved record "safety_review" "independent_review"

theorem missing_eq_nil_iff (container : Fields) (required : List PyStr) :
    missing container required = [] ↔ ∀ key ∈ required, (Json.lookup key container).isSome = true := by
  rw [missing, List.filter_eq_nil_iff]
  refine forall₂_congr fun key _ => ?_
  cases Json.lookup key container <;> simp

theorem item_ok (key : String) (value : Json) (h : Json.lookup (py key) record = some value) :
    item record key = .ok value := by
  rw [item, subscript, h]
  rfl

theorem approved_iff (field key : String) (value : Json) (h : Json.lookup (py field) record = some value) :
    Approved record field key ↔ isApproved key value = true := by
  rw [Approved, h]
  cases value with
  | obj review => simp [isApproved]
  | _ => simp [isApproved]

theorem failedQuestions_eq_nil_iff (questions : Fields) :
    failedQuestions questions = [] ↔ ∀ q ∈ requiredQuestions, Json.lookup q questions = some (.bool true) := by
  rw [failedQuestions, List.filter_eq_nil_iff]
  refine forall₂_congr fun q _ => ?_
  rw [decide_eq_true_eq, not_not]

-- On a complete record the reviews are read without an error.
theorem evaluateReviews_eq_ok (questions : Fields)
    (hcomplete : ∀ field ∈ requiredFields, (Json.lookup field record).isSome = true) :
    ∃ out, evaluateReviews record questions = .ok out ∧
      (out.decision = .ready ↔ Json.lookup (py "authorized") record = some (.bool true) ∧
        Approved record "tests" "regression_ok" ∧ Approved record "legal_review" "approved" ∧
        Approved record "safety_review" "approved" ∧ Approved record "rollback" "documented" ∧
        (Json.lookup (py "irreversible") record = some (.bool true) →
          Approved record "safety_review" "independent_review") ∧
        ∀ q ∈ requiredQuestions, Json.lookup q questions = some (.bool true)) := by
  have hfield : ∀ key : String, py key ∈ requiredFields → ∃ value, Json.lookup (py key) record = some value :=
    fun key hkey => Option.isSome_iff_exists.mp (hcomplete _ hkey)
  obtain ⟨authorized, hauthorized⟩ := hfield "authorized" (by decide)
  obtain ⟨tests, htests⟩ := hfield "tests" (by decide)
  obtain ⟨legal, hlegal⟩ := hfield "legal_review" (by decide)
  obtain ⟨safety, hsafety⟩ := hfield "safety_review" (by decide)
  obtain ⟨rollback, hrollback⟩ := hfield "rollback" (by decide)
  obtain ⟨irreversible, hirreversible⟩ := hfield "irreversible" (by decide)
  rw [approved_iff record _ _ tests htests, approved_iff record _ _ legal hlegal,
    approved_iff record _ _ safety hsafety,
    approved_iff record _ _ rollback hrollback, approved_iff record _ _ safety hsafety, hauthorized, hirreversible,
    ← failedQuestions_eq_nil_iff]
  simp only [evaluateReviews, item_ok record _ _ hauthorized, item_ok record _ _ htests, item_ok record _ _ hlegal,
    item_ok record _ _ hsafety, item_ok record _ _ hrollback, item_ok record _ _ hirreversible, ok_bind]
  by_cases hauth : authorized = .bool true
  swap
  · exact ⟨_, if_pos hauth, by simp [answer, hauth]⟩
  rw [if_neg (not_not.mpr hauth)]
  cases hregression : isApproved "regression_ok" tests
  · exact ⟨_, rfl, by simp [answer]⟩
  cases happroved : isApproved "approved" legal
  · exact ⟨_, rfl, by simp [answer]⟩
  cases hsafe : isApproved "approved" safety
  · exact ⟨_, rfl, by simp [answer]⟩
  cases hdocumented : isApproved "documented" rollback
  · exact ⟨_, rfl, by simp [answer]⟩
  simp only [Bool.not_true, Bool.false_eq_true, if_false]
  by_cases hindependent : irreversible = .bool true ∧ isApproved "independent_review" safety = false
  · exact ⟨_, if_pos hindependent, by simp [answer, hindependent.1, hindependent.2]⟩
  rw [if_neg hindependent]
  have himp : irreversible = .bool true → isApproved "independent_review" safety = true := by
    intro h
    by_contra hno
    exact hindependent ⟨h, by simpa using hno⟩
  by_cases hfailed : failedQuestions questions = []
  · exact ⟨_, if_neg (not_not.mpr hfailed), by simpa [answer, hauth, hfailed] using himp⟩
  · exact ⟨_, if_pos hfailed, by simp [hfailed]⟩

-- Every record gets a decision, and it is `READY` exactly when the record passes.
theorem evaluateRecord_eq_ok : ∃ out, evaluateRecord record = .ok out ∧ (out.decision = .ready ↔ Passes record) := by
  unfold evaluateRecord
  by_cases hmissing : missing record requiredFields = []
  swap
  · refine ⟨_, if_pos hmissing, iff_of_false (by simp) fun h => ?_⟩
    exact hmissing ((missing_eq_nil_iff record requiredFields).mpr h.complete)
  rw [if_neg (not_not.mpr hmissing)]
  have hcomplete := (missing_eq_nil_iff record requiredFields).mp hmissing
  obtain ⟨value, hvalue⟩ := Option.isSome_iff_exists.mp (hcomplete (py "seven_questions") (by decide))
  rw [item_ok record _ _ hvalue, ok_bind]
  have hinvalid : (∀ questions, value ≠ .obj questions) → ¬ Passes record := by
    rintro hne ⟨-, -, -, -, -, -, ⟨questions, hquestions, -⟩, -⟩
    exact hne questions (Option.some.inj (hvalue.symm.trans hquestions))
  cases value with
  | obj questions =>
      dsimp only
      by_cases hpresent : missing questions requiredQuestions = []
      swap
      · refine ⟨_, if_pos hpresent, iff_of_false (by simp) ?_⟩
        rintro ⟨-, -, -, -, -, -, ⟨answers, hanswers, hall⟩, -⟩
        obtain rfl := Json.obj.inj (Option.some.inj (hvalue.symm.trans hanswers))
        exact hpresent ((missing_eq_nil_iff _ _).mpr fun q hq => by rw [hall q hq]; rfl)
      rw [if_neg (not_not.mpr hpresent)]
      obtain ⟨out, hout, hready⟩ := evaluateReviews_eq_ok record questions hcomplete
      refine ⟨out, hout, hready.trans ?_⟩
      constructor
      · rintro ⟨hauthorized, hregression, hlegal, hsafety, hrollback, hindependent, hall⟩
        exact ⟨hcomplete, hauthorized, hregression, hlegal, hsafety, hrollback, ⟨questions, hvalue, hall⟩, hindependent⟩
      · rintro ⟨-, hauthorized, hregression, hlegal, hsafety, hrollback, ⟨answers, hanswers, hall⟩, hindependent⟩
        obtain rfl := Json.obj.inj (Option.some.inj (hvalue.symm.trans hanswers))
        exact ⟨hauthorized, hregression, hlegal, hsafety, hrollback, hindependent, hall⟩
  | null => exact ⟨_, rfl, iff_of_false (by simp) (hinvalid (by simp))⟩
  | bool b => exact ⟨_, rfl, iff_of_false (by simp) (hinvalid (by simp))⟩
  | int n => exact ⟨_, rfl, iff_of_false (by simp) (hinvalid (by simp))⟩
  | float x => exact ⟨_, rfl, iff_of_false (by simp) (hinvalid (by simp))⟩
  | str s => exact ⟨_, rfl, iff_of_false (by simp) (hinvalid (by simp))⟩
  | arr items => exact ⟨_, rfl, iff_of_false (by simp) (hinvalid (by simp))⟩

-- What the code does not ask: that the two documents say something, and that a record
-- whose `irreversible` is no bool has been reviewed independently.
structure Unasked : Prop where
  baseline : Filled record "baseline"
  evidence : Filled record "evidence"
  irreversible : (∃ b, Json.lookup (py "irreversible") record = some (.bool b)) ∨
    Approved record "safety_review" "independent_review"

theorem gateMet_iff (h : Passes record) : GateMet record ↔ Unasked record := by
  constructor
  · intro hmet
    exact ⟨hmet.baseline, hmet.evidence, hmet.independent.imp_left fun hfalse => ⟨false, hfalse⟩⟩
  · intro hunasked
    refine ⟨h.authorized, h.regression, h.legal, h.safety, h.rollback, h.questions, hunasked.baseline,
      hunasked.evidence, ?_⟩
    rcases hunasked.irreversible with ⟨b, hb⟩ | hindependent
    · cases b with
      | false => exact .inl hb
      | true => exact .inr (h.independent hb)
    · exact .inr hindependent

-- `READY` stands for the documented gate exactly when the code refuses the record or what it
-- does not ask holds, too.
theorem ready_gate_iff : (∃ out, evaluateRecord record = .ok out ∧ (out.decision = .ready → GateMet record)) ↔
    (Passes record → Unasked record) := by
  obtain ⟨out, hout, hready⟩ := evaluateRecord_eq_ok record
  constructor
  · rintro ⟨out', hout', hgate⟩ hpasses
    obtain rfl := Except.ok.inj (hout.symm.trans hout')
    exact (gateMet_iff record hpasses).mp (hgate (hready.mpr hpasses))
  · intro hunasked
    refine ⟨out, hout, fun hdecision => ?_⟩
    have hpasses := hready.mp hdecision
    exact (gateMet_iff record hpasses).mpr (hunasked hpasses)

-- Baseline and evidence are null, and `irreversible` is a text.
def vagueRecord : Fields :=
  [(py "change_id", .str (py "LG-001")), (py "scope", .str (py "v91-core-system")), (py "owner", .str (py "ops-team")),
    (py "authorized", .bool true), (py "irreversible", .str (py "yes")), (py "baseline", .null), (py "evidence", .null),
    (py "legal_review", .obj [(py "approved", .bool true)]), (py "safety_review", .obj [(py "approved", .bool true)]),
    (py "tests", .obj [(py "regression_ok", .bool true)]), (py "rollback", .obj [(py "documented", .bool true)]),
    (py "seven_questions", .obj (requiredQuestions.map fun q => (q, .bool true)))]

theorem vague_record_ready : evaluateRecord vagueRecord = .ok (answer .ready "AUTHORIZED_CHANGE_ALLOWED") ∧
    ¬ GateMet vagueRecord := by
  refine ⟨by decide, fun h => ?_⟩
  obtain ⟨value, hvalue, hfilled⟩ := h.baseline
  have hnull : Json.lookup (py "baseline") vagueRecord = some .null := by decide
  obtain rfl := Option.some.inj (hnull.symm.trans hvalue)
  cases hfilled

end Gate

end V91Core.LegacyGate
