import V91Core.Stewardship.InStep

namespace V91Core.Stewardship

open V91Core.Python V91Core.Ledger V91Core.Effect

-- A target, a payload, and the time of the call.
structure Evaluation where
  target : PyStr
  payload : PyData
  timestamp : PyStr

def Evaluation.call (e : Evaluation) (file : Option Bytes) : Call :=
  ⟨.str e.target, e.payload, .ok e.timestamp, file, none⟩

-- What a gate has decided, with the gate and the file that it leaves.
structure Decided where
  decisions : List Decision
  gate : StewardshipGate
  file : Option Bytes

section Sessions

variable {S : Type} (A : ScoreArith S) (rt : Runtime)

-- One gate evaluates until a call raises.
def evaluateAll (gate : StewardshipGate) (file : Option Bytes) : List Evaluation → Except PyExc Decided
  | [] => .ok ⟨[], gate, file⟩
  | e :: evaluations => do
      let out := (e.call file).evaluate A rt gate
      let advice ← out.result
      let rest ← evaluateAll out.gate out.file evaluations
      .ok { rest with decisions := advice.decision :: rest.decisions }

def session (file : Option Bytes) (evaluations : List Evaluation) : Except PyExc Decided := do
  let gate ← StewardshipGate.init rt file file
  evaluateAll A rt gate file evaluations

-- Each list of evaluations is made by a gate of its own.
def sessions (file : Option Bytes) : List (List Evaluation) → Except PyExc (List Decision)
  | [] => .ok []
  | first :: rest => do
      let done ← session A rt file first
      let later ← sessions done.file rest
      .ok (done.decisions ++ later)

-- What the payloads of these evaluations are assessed to.
def assessed (evaluations : List Evaluation) : List (Assessed S) :=
  evaluations.filterMap fun e => (assess A e.payload).toOption

theorem assessed_append (first rest : List Evaluation) :
    assessed A (first ++ rest) = assessed A first ++ assessed A rest := List.filterMap_append

theorem assessed_flatten (lists : List (List Evaluation)) :
    assessed A lists.flatten = (lists.map (assessed A)).flatten := by
  induction lists with
  | nil => rfl
  | cons first lists ih => rw [List.flatten_cons, assessed_append, ih, List.map_cons, List.flatten_cons]

theorem assessed_cons (e : Evaluation) (rest : List Evaluation) (a : Assessed S)
    (h : assess A e.payload = .ok a) : assessed A (e :: rest) = a :: assessed A rest := by
  rw [assessed, List.filterMap_cons_some (by rw [h]; rfl), assessed]

theorem call_eq_ok (e : Evaluation) (gate : StewardshipGate) (file : Option Bytes) (advice : Advice S)
    (h : ((e.call file).evaluate A rt gate).result = .ok advice) :
    ∃ a, assess A e.payload = .ok a ∧ advice.decision = (automaton A).output gate.active a ∧
      ((e.call file).evaluate A rt gate).gate.active = (automaton A).step gate.active a := by
  rcases evaluate_cases A rt gate (e.call file) with
    ⟨e', -, heval⟩ | ⟨a, ha, ⟨-, ledger, timestamp, digest, line, -, heval⟩ | ⟨-, file', e', heval⟩⟩
  · rw [heval] at h
    cases h
  · rw [heval] at h ⊢
    obtain rfl := Except.ok.inj h
    exact ⟨a, ha, rfl, rfl⟩
  · rw [heval] at h
    cases h

theorem evaluateAll_cons (gate : StewardshipGate) (file : Option Bytes) (e : Evaluation)
    (rest : List Evaluation) (done : Decided) :
    evaluateAll A rt gate file (e :: rest) = .ok done ↔
      ∃ advice later, ((e.call file).evaluate A rt gate).result = .ok advice ∧
        evaluateAll A rt ((e.call file).evaluate A rt gate).gate ((e.call file).evaluate A rt gate).file rest =
          .ok later ∧ done = { later with decisions := advice.decision :: later.decisions } := by
  simp only [evaluateAll, bind_eq_ok, Except.ok.injEq]
  simp [eq_comm]

-- The decisions of one gate follow the rule from its flag.
theorem decisions_eq (gate : StewardshipGate) (file : Option Bytes) (evaluations : List Evaluation)
    (done : Decided) (h : evaluateAll A rt gate file evaluations = .ok done) :
    done.decisions = (automaton A).outputs gate.active (assessed A evaluations) ∧
      done.gate.active = (automaton A).after gate.active (assessed A evaluations) ∧
      ∀ e ∈ evaluations, ∃ a, assess A e.payload = .ok a := by
  induction evaluations generalizing gate file done with
  | nil =>
      obtain rfl := Except.ok.inj h
      exact ⟨rfl, rfl, by simp⟩
  | cons e evaluations ih =>
      obtain ⟨advice, later, hadvice, hlater, rfl⟩ := (evaluateAll_cons A rt _ _ _ _ _).mp h
      obtain ⟨a, ha, hdecision, hactive⟩ := call_eq_ok A rt e gate file advice hadvice
      obtain ⟨hdecisions, hafter, hassessed⟩ := ih _ _ _ hlater
      rw [hactive] at hdecisions hafter
      rw [assessed_cons A e evaluations a ha, Mealy.outputs, ← hdecision, ← hdecisions]
      exact ⟨rfl, hafter, List.forall_mem_cons.mpr ⟨⟨a, ha⟩, hassessed⟩⟩

theorem init_eq_ok (file : Option Bytes) (gate : StewardshipGate)
    (h : StewardshipGate.init rt file file = .ok gate) :
    ∃ ledger, HashChainLedger.init rt file file = .ok ledger ∧ gate = ⟨ledger, false⟩ := by
  obtain ⟨ledger, hledger, hgate⟩ := (bind_eq_ok _ _ _).mp h
  exact ⟨ledger, hledger, (Except.ok.inj hgate).symm⟩

theorem sessions_decisions (file : Option Bytes) (lists : List (List Evaluation)) (decisions : List Decision)
    (h : sessions A rt file lists = .ok decisions) :
    decisions = (automaton A).sessionOutputs (lists.map (assessed A)) := by
  induction lists generalizing file decisions with
  | nil => exact (Except.ok.inj h).symm
  | cons first lists ih =>
      simp only [sessions, session, bind_eq_ok, Except.ok.injEq] at h
      obtain ⟨done, ⟨gate, hgate, hdone⟩, later, hlater, rfl⟩ := h
      obtain ⟨ledger, -, rfl⟩ := init_eq_ok rt file gate hgate
      rw [(decisions_eq A rt _ _ _ _ hdone).1, ih _ _ hlater]
      rfl

end Sessions

section Files

variable {S : Type} (A : ScoreArith S) (rt : Runtime)

def numberJson : PyNum → Json
  | .int n => .int n
  | .float x => .float x

def recordJson (target : PyStr) (a : Assessed S) (decision : Decision) : Json :=
  .obj [(py "target", .str target),
    (py "input", .obj [(py "resource_util", numberJson a.inputs.resourceUtil),
      (py "entropy", numberJson a.inputs.entropy), (py "environment", numberJson a.inputs.environment),
      (py "human_impact", numberJson a.inputs.humanImpact)]),
    (py "score", .float (A.round 6 a.score)), (py "decision", .str decision.text), (py "executed", .bool false)]

theorem recordPayload_json (target : PyStr) (a : Assessed S) (decision : Decision) :
    recordPayload A (.str target) a decision = .ofJson (recordJson A target a decision) := by
  have hnumber : ∀ n, PyData.ofNumber n = .ofJson (numberJson n) := by
    intro n
    cases n <;> rfl
  simp only [recordPayload, hnumber]
  rfl

theorem recordJson_wf (target : PyStr) (a : Assessed S) (decision : Decision) :
    Json.Wf (recordJson A target a decision) := by
  have hnumber : ∀ n, Json.Wf (numberJson n) := by
    intro n
    cases n <;> trivial
  have hinput : [py "resource_util", py "entropy", py "environment", py "human_impact"].Nodup := by decide
  have hkeys : [py "target", py "input", py "score", py "decision", py "executed"].Nodup := by decide
  refine ⟨hkeys, trivial, ⟨⟨hinput, ?_⟩, trivial, trivial, trivial, trivial⟩⟩
  exact ⟨hnumber _, hnumber _, hnumber _, hnumber _, trivial⟩

-- The gate has read the file, and can append to it.
structure Ready (gate : StewardshipGate) (file : Option Bytes) (rs : List Record) : Prop where
  chained : Chained rt file rs
  safe : AppendSafe rt file
  ledger : gate.ledger = ledgerAfter rs

theorem Ready.init (gate : StewardshipGate) (file : Option Bytes) (rs : List Record) (h : Ready rt gate file rs) :
    StewardshipGate.init rt file file = .ok ⟨gate.ledger, false⟩ := by
  rw [StewardshipGate.init, init_of_chained rt file rs h.chained, h.ledger]
  rfl

theorem call_appended (e : Evaluation) (gate : StewardshipGate) (file : Option Bytes) (advice : Advice S)
    (h : ((e.call file).evaluate A rt gate).result = .ok advice) :
    ∃ payload record, Json.Wf payload ∧ gate.ledger.append rt file payload e.timestamp =
      ⟨((e.call file).evaluate A rt gate).file, ((e.call file).evaluate A rt gate).gate.ledger, .ok record⟩ := by
  unfold Call.evaluate StewardshipGate.evaluate Evaluation.call at h ⊢
  cases hassess : assess A e.payload with
  | error e =>
      simp only [hassess] at h
      cases h
  | ok a =>
      simp only [hassess, recordPayload_json] at h ⊢
      obtain ⟨hfile, hledger, hresult⟩ := appendData_ofJson rt gate.ledger file
        (recordJson A e.target a (gate.decide A a).1) e.timestamp
      obtain ⟨entries, hentries, -⟩ := (bind_eq_ok _ _ _).mp h
      rw [hentries] at hresult
      cases happend : gate.ledger.append rt file (recordJson A e.target a (gate.decide A a).1) e.timestamp with
      | mk file' ledger' result =>
          rw [happend] at hfile hledger hresult
          cases result with
          | error e' => cases hresult
          | ok record =>
              refine ⟨_, record, recordJson_wf A e.target a (gate.decide A a).1, ?_⟩
              rw [happend, hfile, hledger]

theorem Ready.call (gate : StewardshipGate) (file : Option Bytes) (rs : List Record) (h : Ready rt gate file rs)
    (e : Evaluation) (advice : Advice S) (hadvice : ((e.call file).evaluate A rt gate).result = .ok advice) :
    ∃ rs', Ready rt ((e.call file).evaluate A rt gate).gate ((e.call file).evaluate A rt gate).file rs' := by
  obtain ⟨payload, record, hpayload, happend⟩ := call_appended A rt e gate file advice hadvice
  rw [h.ledger] at happend
  obtain ⟨digest, hchained, hledger, hopen⟩ := chained_append rt file _ rs _ payload record e.timestamp h.chained
    h.safe hpayload happend
  refine ⟨_, hchained, ⟨by simp [hopen], ?_⟩, hledger⟩
  rw [records_of_chained rt _ _ hchained]
  simp [appendedRecord]

theorem Ready.evaluateAll (gate : StewardshipGate) (file : Option Bytes) (rs : List Record)
    (h : Ready rt gate file rs) (evaluations : List Evaluation) (done : Decided)
    (hdone : evaluateAll A rt gate file evaluations = .ok done) : ∃ rs', Ready rt done.gate done.file rs' := by
  induction evaluations generalizing gate file rs done with
  | nil =>
      obtain rfl := Except.ok.inj hdone
      exact ⟨rs, h⟩
  | cons e evaluations ih =>
      obtain ⟨advice, later, hadvice, hlater, rfl⟩ := (evaluateAll_cons A rt _ _ _ _ _).mp hdone
      obtain ⟨rs', hready⟩ := h.call A rt gate file rs e advice hadvice
      exact ih _ _ rs' hready later hlater

theorem evaluateAll_append (gate : StewardshipGate) (file : Option Bytes) (first rest : List Evaluation)
    (done : Decided) : evaluateAll A rt gate file (first ++ rest) = .ok done ↔
      ∃ before later, evaluateAll A rt gate file first = .ok before ∧
        evaluateAll A rt before.gate before.file rest = .ok later ∧
          done = { later with decisions := before.decisions ++ later.decisions } := by
  induction first generalizing gate file done with
  | nil => simp [evaluateAll, eq_comm]
  | cons e first ih =>
      rw [List.cons_append, evaluateAll_cons]
      constructor
      · rintro ⟨advice, later, hadvice, hlater, rfl⟩
        obtain ⟨before, after, hbefore, hafter, rfl⟩ := (ih _ _ _).mp hlater
        exact ⟨_, after, (evaluateAll_cons A rt _ _ _ _ _).mpr ⟨advice, before, hadvice, hbefore, rfl⟩,
          hafter, rfl⟩
      · rintro ⟨before, after, hbefore, hafter, rfl⟩
        obtain ⟨advice, later, hadvice, hlater, rfl⟩ := (evaluateAll_cons A rt _ _ _ _ _).mp hbefore
        exact ⟨advice, _, hadvice, (ih _ _ _).mpr ⟨later, after, hlater, hafter, rfl⟩, rfl⟩

-- Gates that decide the first evaluation alike go on alike.
theorem evaluateAll_flag (ledger : HashChainLedger) (active active' : Bool) (file : Option Bytes)
    (e : Evaluation) (rest : List Evaluation) (a : Assessed S) (ha : assess A e.payload = .ok a)
    (hsame : (automaton A).output active a = (automaton A).output active' a) :
    evaluateAll A rt ⟨ledger, active⟩ file (e :: rest) = evaluateAll A rt ⟨ledger, active'⟩ file (e :: rest) := by
  have hdecide : StewardshipGate.decide A ⟨ledger, active⟩ a = StewardshipGate.decide A ⟨ledger, active'⟩ a := by
    rw [decide_eq, decide_eq, automaton_recalls A, automaton_recalls A, hsame]
  have hcall : (e.call file).evaluate A rt ⟨ledger, active⟩ = (e.call file).evaluate A rt ⟨ledger, active'⟩ := by
    simp only [Call.evaluate, StewardshipGate.evaluate, Evaluation.call, ha, hdecide]
  rw [evaluateAll, evaluateAll, hcall]

theorem sessions_of_seamless (gate : StewardshipGate) (file : Option Bytes) (rs : List Record)
    (h : Ready rt gate file rs) (lists : List (List Evaluation)) (done : Decided)
    (hdone : evaluateAll A rt gate file lists.flatten = .ok done)
    (hseamless : (automaton A).Seamless gate.active (lists.map (assessed A))) :
    sessions A rt file lists = .ok done.decisions := by
  induction lists generalizing gate file rs done with
  | nil =>
      obtain rfl := Except.ok.inj hdone
      rfl
  | cons first lists ih =>
      rw [List.flatten_cons, evaluateAll_append] at hdone
      obtain ⟨before, later, hbefore, hlater, rfl⟩ := hdone
      obtain ⟨-, hactive, hassessed⟩ := decisions_eq A rt gate file first before hbefore
      obtain ⟨rs', hready⟩ := h.evaluateAll A rt gate file rs first before hbefore
      -- the session's own gate answers as the gate that has gone on
      have hsession : ∃ own, session A rt file first = .ok own ∧ own.decisions = before.decisions ∧
          own.file = before.file ∧ (automaton A).Seamless before.gate.active (lists.map (assessed A)) := by
        rw [session, h.init rt gate file rs]
        cases first with
        | nil =>
            obtain rfl := Except.ok.inj hbefore
            exact ⟨_, rfl, rfl, rfl, hseamless⟩
        | cons e first =>
            obtain ⟨a, ha⟩ := hassessed e List.mem_cons_self
            rw [List.map_cons, assessed_cons A e first a ha] at hseamless
            rw [assessed_cons A e first a ha] at hactive
            refine ⟨before, ?_, rfl, rfl, by rw [hactive]; exact hseamless.2⟩
            exact (evaluateAll_flag A rt gate.ledger false gate.active file e first a ha hseamless.1.symm).trans
              hbefore
      obtain ⟨own, hown, hdecisions, hfile, hrest⟩ := hsession
      have hnext := ih before.gate before.file rs' hready later hlater hrest
      rw [sessions, hown, ← hdecisions]
      change (sessions A rt own.file lists >>= _) = _
      rw [hfile, hnext]
      rfl

-- A score in the hold band, between the two triggers, without a veto.
def InHoldBand (a : Assessed S) : Prop := a.vetoed = false ∧ a.high A = false ∧ a.notLow A = true

theorem output_eq_init_iff (active : Bool) (a : Assessed S) :
    (automaton A).output active a = (automaton A).output (automaton A).init a ↔
      ¬ (active = true ∧ InHoldBand A a) := by
  simp only [automaton, InHoldBand]
  cases a.vetoed <;> cases a.high A <;> cases active <;> cases a.notLow A <;> simp

-- One gate's decisions are those of several gates opened one after another unless
-- one of these starts in the hold band after an approval.
theorem restart_decisions_iff (file : Option Bytes) (hsafe : AppendSafe rt file)
    (lists : List (List Evaluation)) (done : Decided) (hdone : session A rt file lists.flatten = .ok done) :
    sessions A rt file lists = .ok done.decisions ↔
      ∀ before e rest later, lists = before ++ (e :: rest) :: later → ∀ a, assess A e.payload = .ok a →
        ¬ ((automaton A).after false (assessed A before.flatten) = true ∧ InHoldBand A a) := by
  obtain ⟨gate, hgate, hrun⟩ := (bind_eq_ok _ _ _).mp hdone
  obtain ⟨ledger, hledger, rfl⟩ := init_eq_ok rt file gate hgate
  obtain ⟨rs, hchained, rfl⟩ := chained_of_init rt file ledger hledger
  obtain ⟨hdecisions, -, hassessed⟩ := decisions_eq A rt _ file _ done hrun
  have hseamless : sessions A rt file lists = .ok done.decisions ↔
      (automaton A).Seamless false (lists.map (assessed A)) := by
    constructor
    · intro hsessions
      rw [← (automaton_recalls A).outputs_sessions_iff, ← assessed_flatten,
        ← sessions_decisions A rt file lists _ hsessions, hdecisions]
    · exact sessions_of_seamless A rt _ file rs ⟨hchained, hsafe, rfl⟩ lists done hrun
  rw [hseamless, Mealy.seamless_iff_split]
  constructor
  · intro h before e rest later hlists a ha
    have hfirst := h (before.map (assessed A)) a (assessed A rest) (later.map (assessed A)) (by
      rw [hlists, List.map_append, List.map_cons, assessed_cons A e rest a ha])
    rwa [← assessed_flatten, output_eq_init_iff] at hfirst
  · intro h before a inputs later hsplit
    obtain ⟨before, tail, rfl, rfl, htail⟩ := List.map_eq_append_iff.mp hsplit
    obtain ⟨first, later, rfl, hfirst, rfl⟩ := List.map_eq_cons_iff.mp htail
    rw [← assessed_flatten, output_eq_init_iff]
    cases first with
    | nil => cases hfirst
    | cons e rest =>
        obtain ⟨a', ha'⟩ := hassessed e (by simp)
        rw [assessed_cons A e rest a' ha'] at hfirst
        obtain rfl := (List.cons.inj hfirst).1
        exact h before e rest later rfl a' ha'

end Files

section Sample

def sampleEvaluation (load : PyData) : Evaluation :=
  ⟨py "service", samplePayload load, py "2026-01-01T00:00:00Z"⟩

theorem sample_decisions : (session ScoreArith.exact sampleRuntime none
    [sampleEvaluation (.int 1), sampleEvaluation (.float 0.6)]).map Decided.decisions =
      .ok [.approvedAdvisory, .approvedAdvisory] := by decide +kernel

-- One gate holds its approval at a score of 0.6, and a new gate does not give one.
theorem restart_loses_approval :
    (session ScoreArith.exact sampleRuntime none
        [sampleEvaluation (.int 1), sampleEvaluation (.float 0.6)]).map Decided.decisions =
      .ok [.approvedAdvisory, .approvedAdvisory] ∧
    sessions ScoreArith.exact sampleRuntime none [[sampleEvaluation (.int 1)], [sampleEvaluation (.float 0.6)]] =
      .ok [.approvedAdvisory, .idle] := ⟨sample_decisions, by decide +kernel⟩

-- An approval, a score in the hold band and a low one.
def sampleEvaluations : List Evaluation :=
  [sampleEvaluation (.int 1), sampleEvaluation (.float 0.6), sampleEvaluation (.int 0)]

theorem sample_three : (session ScoreArith.exact sampleRuntime none sampleEvaluations).map Decided.decisions =
    .ok [.approvedAdvisory, .approvedAdvisory, .idle] := by decide +kernel

-- A new gate for the last evaluation changes nothing, and one for the hold band does.
theorem restart_decisions_sample :
    sessions ScoreArith.exact sampleRuntime none
        [[sampleEvaluation (.int 1), sampleEvaluation (.float 0.6)], [sampleEvaluation (.int 0)]] =
      .ok [.approvedAdvisory, .approvedAdvisory, .idle] := by
  have hsafe : AppendSafe sampleRuntime none := ⟨by simp [openLine], by simp [records]⟩
  have hdecisions := sample_three
  cases hdone : session ScoreArith.exact sampleRuntime none sampleEvaluations with
  | error e =>
      rw [hdone] at hdecisions
      cases hdecisions
  | ok done =>
      rw [hdone] at hdecisions
      have hiff := restart_decisions_iff ScoreArith.exact sampleRuntime none hsafe
        [[sampleEvaluation (.int 1), sampleEvaluation (.float 0.6)], [sampleEvaluation (.int 0)]] done hdone
      have hlow : (assess ScoreArith.exact (samplePayload (.int 0))).map (Assessed.notLow ScoreArith.exact) =
          .ok false := by
        decide +kernel
      refine (hiff.mpr fun before e rest later hsplit a ha => ?_).trans hdecisions
      rintro ⟨hactive, -, -, hnotLow⟩
      rcases before with _ | ⟨first, _ | ⟨second, before⟩⟩
      · cases hactive
      · obtain ⟨-, hrest⟩ := List.cons.inj hsplit
        obtain ⟨rfl, -⟩ := List.cons.inj (List.cons.inj hrest).1
        change assess ScoreArith.exact (samplePayload (.int 0)) = .ok a at ha
        rw [ha] at hlow
        exact absurd (hnotLow.symm.trans (Except.ok.inj hlow)) (by decide)
      · simp at hsplit

end Sample

end V91Core.Stewardship
