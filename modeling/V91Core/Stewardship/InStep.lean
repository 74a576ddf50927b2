import V91Core.Effect.Run
import V91Core.Stewardship.Gate

namespace V91Core.Stewardship

open V91Core.Python V91Core.Ledger V91Core.Effect

section Automaton

variable {S : Type} (A : ScoreArith S)

-- The rule that the decisions follow. Its state tells whether the last decision
-- was an approval.
def automaton : Mealy Bool (Assessed S) Decision where
  init := false
  output approved a :=
    if a.vetoed then .rejectedHumanImpact
    else if a.high A ∨ approved ∧ a.notLow A then .approvedAdvisory
    else .idle
  step approved a := !a.vetoed && (a.high A || approved && a.notLow A)

def Decision.isApproval : Decision → Bool
  | .approvedAdvisory => true
  | _ => false

@[simp] theorem Decision.isApproval_iff (decision : Decision) :
    decision.isApproval = true ↔ decision = .approvedAdvisory := by
  cases decision <;> simp [isApproval]

theorem automaton_recalls : (automaton A).Recalls Decision.isApproval := by
  intro approved a
  simp only [automaton]
  cases a.vetoed <;> cases a.high A <;> cases approved <;> cases a.notLow A <;> rfl

-- `evaluate` decides by this rule from its flag.
theorem decide_eq (gate : StewardshipGate) (a : Assessed S) :
    gate.decide A a = ((automaton A).output gate.active a, (automaton A).step gate.active a) := by
  simp only [StewardshipGate.decide, automaton]
  cases a.vetoed <;> cases a.high A <;> cases gate.active <;> cases a.notLow A <;> rfl

end Automaton

-- The arguments of an `evaluate` call, with the clock, the content of the ledger
-- file and the file operation that fails. Others may write to the file between
-- the calls.
structure Call where
  target : PyData
  payload : PyData
  clock : Except PyExc PyStr
  file : Option Bytes
  fault : Option FileFault

section Evaluate

variable {S : Type} (A : ScoreArith S) (rt : Runtime) (gate : StewardshipGate) (c : Call)

def Call.evaluate : Evaluated S := gate.evaluate A rt c.file c.target c.payload c.clock c.fault

-- The record that the rule asks for can be written, and nothing else fails.
def Recordable (a : Assessed S) : Prop :=
  ∃ timestamp, c.clock = .ok timestamp ∧ c.fault = none ∧
    gate.ledger.Writable rt (recordPayload A c.target a ((automaton A).output gate.active a)) timestamp

theorem evaluate_cases :
    (∃ e, assess A c.payload = .error e ∧ c.evaluate A rt gate = ⟨gate, c.file, .error e⟩) ∨
    ∃ a, assess A c.payload = .ok a ∧
      ((Recordable A rt gate c a ∧ ∃ ledger timestamp digest line, gate.ledger.dataLine rt timestamp
          (recordPayload A c.target a ((automaton A).output gate.active a)) digest = .ok line ∧
        c.evaluate A rt gate = ⟨⟨ledger, (automaton A).step gate.active a⟩, some (c.file.getD [] ++ line),
          .ok ⟨(automaton A).output gate.active a, a.score, .str digest⟩⟩) ∨
        (¬ Recordable A rt gate c a ∧ ∃ file e, c.evaluate A rt gate =
          ⟨⟨gate.ledger, (automaton A).step gate.active a⟩, file, .error e⟩)) := by
  unfold Call.evaluate StewardshipGate.evaluate Recordable
  cases assess A c.payload with
  | error e => exact .inl ⟨e, rfl, rfl⟩
  | ok a =>
      refine .inr ⟨a, rfl, ?_⟩
      simp only [decide_eq]
      cases c.clock with
      | error e => exact .inr ⟨by simp, c.file, e, rfl⟩
      | ok timestamp =>
          simp only
          rcases appendData_cases rt gate.ledger c.file
            (recordPayload A c.target a ((automaton A).output gate.active a)) timestamp c.fault with
            ⟨digest, line, hdigest, hline, hfault, happend⟩ | ⟨hnot, file, e, happend⟩
          · refine .inl ⟨⟨timestamp, rfl, hfault, digest, hdigest, line, hline⟩, ?_⟩
            rw [happend]
            exact ⟨_, timestamp, digest, line, hline, rfl⟩
          · refine .inr ⟨?_, ?_⟩
            · rintro ⟨timestamp', htime, hfault, hwritable⟩
              obtain rfl := Except.ok.inj htime
              exact hnot ⟨hwritable, hfault⟩
            · rw [happend]
              exact ⟨file, e, rfl⟩

end Evaluate

-- A record of the ledger, with what it was decided from.
structure Entry (S : Type) where
  assessed : Assessed S
  decision : Decision

-- A gate with the records that it has written, in their order.
structure GateRun (S : Type) where
  gate : StewardshipGate
  recorded : List (Entry S)

section Runs

variable {S : Type} (A : ScoreArith S) (rt : Runtime)

def GateRun.start (ledger : HashChainLedger) : GateRun S := ⟨⟨ledger, false⟩, []⟩

-- The record of a call whose append has returned.
def entryOf (gate : StewardshipGate) (c : Call) : Option (Entry S) :=
  match assess A c.payload, (c.evaluate A rt gate).result with
  | .ok a, .ok advice => some ⟨a, advice.decision⟩
  | _, _ => none

-- What a run counts as a record is a line at the end of the file.
theorem entryOf_written (gate : StewardshipGate) (c : Call) (entry : Entry S)
    (h : entryOf A rt gate c = some entry) : ∃ timestamp digest line, gate.ledger.dataLine rt timestamp
      (recordPayload A c.target entry.assessed entry.decision) digest = .ok line ∧
        (c.evaluate A rt gate).file = some (c.file.getD [] ++ line) := by
  unfold entryOf at h
  rcases evaluate_cases A rt gate c with
    ⟨e, hassess, heval⟩ | ⟨a, hassess, ⟨-, ledger, timestamp, digest, line, hline, heval⟩ | ⟨-, file, e, heval⟩⟩
  · rw [hassess] at h
    cases h
  · rw [hassess, heval] at h
    obtain rfl := Option.some.inj h
    exact ⟨timestamp, digest, line, hline, by rw [heval]⟩
  · rw [hassess, heval] at h
    cases h

def GateRun.step (r : GateRun S) (c : Call) : GateRun S :=
  ⟨(c.evaluate A rt r.gate).gate, r.recorded ++ (entryOf A rt r.gate c).toList⟩

-- What the calls return or raise.
def results : GateRun S → List Call → List (Except PyExc (Advice S))
  | _, [] => []
  | r, c :: calls => (c.evaluate A rt r.gate).result :: results (r.step A rt c) calls

-- The flag says what the last record says, and the records follow the rule.
structure InStep (r : GateRun S) : Prop where
  active : r.gate.active = true ↔ r.recorded.getLast?.map Entry.decision = some .approvedAdvisory
  decisions : r.recorded.map Entry.decision =
    (automaton A).outputs (automaton A).init (r.recorded.map Entry.assessed)

-- A call that raises changes nothing for the calls after it.
def FailuresInert (s : GateRun S) (calls : List Call) : Prop :=
  ∀ before c later, calls = before ++ c :: later →
    (∃ e, (c.evaluate A rt (runFrom (GateRun.step A rt) s before).gate).result = .error e) →
    results A rt (runFrom (GateRun.step A rt) s (before ++ [c])) later =
      results A rt (runFrom (GateRun.step A rt) s before) later

-- If the record of valid inputs cannot be written, then the rule approves them
-- exactly when the gate is active.
def KeepsFlag (r : GateRun S) (c : Call) : Prop :=
  ∀ a, assess A c.payload = .ok a → ¬ Recordable A rt r.gate c a →
    ((a.vetoed = false ∧ (a.high A ∨ r.gate.active ∧ a.notLow A)) ↔ r.gate.active = true)

theorem step_cases (r : GateRun S) (c : Call) :
    (∃ e, (c.evaluate A rt r.gate).result = .error e ∧ r.step A rt c = r ∧ KeepsFlag A rt r c) ∨
    ∃ a, assess A c.payload = .ok a ∧
      ((Recordable A rt r.gate c a ∧ ∃ advice ledger, (c.evaluate A rt r.gate).result = .ok advice ∧
          r.step A rt c = ⟨⟨ledger, (automaton A).step r.gate.active a⟩,
            r.recorded ++ [⟨a, (automaton A).output r.gate.active a⟩]⟩) ∨
        (¬ Recordable A rt r.gate c a ∧ ∃ e, (c.evaluate A rt r.gate).result = .error e ∧
          r.step A rt c = ⟨⟨r.gate.ledger, (automaton A).step r.gate.active a⟩, r.recorded⟩)) := by
  unfold GateRun.step entryOf
  rcases evaluate_cases A rt r.gate c with
    ⟨e, hassess, heval⟩ | ⟨a, hassess, ⟨hrecord, ledger, timestamp, digest, line, -, heval⟩ |
      ⟨hrecord, file, e, heval⟩⟩
  · refine .inl ⟨e, by rw [heval], ?_, ?_⟩
    · rw [heval, hassess]
      simp
    · intro a ha
      rw [hassess] at ha
      cases ha
  · refine .inr ⟨a, hassess, .inl ⟨hrecord, _, ledger, by rw [heval], ?_⟩⟩
    rw [heval, hassess]
    simp
  · refine .inr ⟨a, hassess, .inr ⟨hrecord, e, by rw [heval], ?_⟩⟩
    rw [heval, hassess]
    simp

theorem keepsFlag_iff (r : GateRun S) (c : Call) (a : Assessed S) (ha : assess A c.payload = .ok a)
    (hrecord : ¬ Recordable A rt r.gate c a) :
    KeepsFlag A rt r c ↔ (automaton A).step r.gate.active a = r.gate.active := by
  have hstep : (automaton A).step r.gate.active a = r.gate.active ↔
      ((a.vetoed = false ∧ (a.high A ∨ r.gate.active ∧ a.notLow A)) ↔ r.gate.active = true) := by
    rw [Bool.eq_iff_iff]
    simp [automaton]
  rw [hstep]
  constructor
  · exact fun h => h a ha hrecord
  · intro h a' ha' _
    obtain rfl := Except.ok.inj (ha.symm.trans ha')
    exact h

theorem step_of_failed (r : GateRun S) (c : Call) (h : KeepsFlag A rt r c) (e : PyExc)
    (hfailed : (c.evaluate A rt r.gate).result = .error e) : r.step A rt c = r := by
  rcases step_cases A rt r c with ⟨-, -, hsame, -⟩ | ⟨a, ha, ⟨-, advice, -, hok, -⟩ | ⟨hrecord, -, -, hstep⟩⟩
  · exact hsame
  · rw [hok] at hfailed
    cases hfailed
  · rw [hstep, (keepsFlag_iff A rt r c a ha hrecord).mp h]

theorem InStep.after (r : GateRun S) (h : InStep A r) :
    (automaton A).after (automaton A).init (r.recorded.map Entry.assessed) = r.gate.active := by
  rw [(automaton_recalls A).after_eq, ← h.decisions, List.getLast?_map, Bool.eq_iff_iff, h.active]
  cases r.recorded.getLast? <;> simp [automaton]

theorem InStep.step (r : GateRun S) (c : Call) (h : InStep A r) (hkeeps : KeepsFlag A rt r c) :
    InStep A (r.step A rt c) := by
  rcases step_cases A rt r c with ⟨-, -, hsame, -⟩ | ⟨a, ha, ⟨-, advice, ledger, -, hstep⟩ | ⟨-, e, hfailed, -⟩⟩
  · rwa [hsame]
  · rw [hstep]
    constructor
    · rw [automaton_recalls A]
      simp
    · simp only [List.map_append, List.map_cons, List.map_nil]
      rw [Mealy.outputs_concat, h.after, h.decisions]
  · rwa [step_of_failed A rt r c hkeeps e hfailed]

theorem InStep.keeps (r : GateRun S) (c : Call) (h : InStep A r) (hnext : InStep A (r.step A rt c)) :
    KeepsFlag A rt r c := by
  rcases step_cases A rt r c with ⟨-, -, -, hkeeps⟩ | ⟨a, ha, ⟨hrecord, -⟩ | ⟨hrecord, e, -, hstep⟩⟩
  · exact hkeeps
  · intro a' ha' hnot
    obtain rfl := Except.ok.inj (ha.symm.trans ha')
    exact absurd hrecord hnot
  · rw [keepsFlag_iff A rt r c a ha hrecord]
    have hactive := hnext.active
    rw [hstep] at hactive
    rw [Bool.eq_iff_iff]
    exact hactive.trans h.active.symm

theorem InStep.start (ledger : HashChainLedger) : InStep A (GateRun.start ledger) :=
  ⟨by simp [GateRun.start], rfl⟩

-- The gate stays in step with its ledger, and no failed call matters later,
-- unless a call that fails at its record changes the flag.
theorem decisions_in_step_iff (ledger : HashChainLedger) (calls : List Call) :
    (Always (GateRun.step A rt) (InStep A) (GateRun.start ledger) calls ∧
        FailuresInert A rt (GateRun.start ledger) calls) ↔
      EachStep (GateRun.step A rt) (KeepsFlag A rt) (GateRun.start ledger) calls := by
  have halways := always_iff_eachStep (InStep A) (InStep A) (KeepsFlag A rt) (fun _ h => h)
    (fun r c h => h.step A rt r c) (fun r c h => h.keeps A rt r c) (GateRun.start ledger) calls
    (InStep.start A ledger)
  rw [halways, and_iff_left_iff_imp]
  intro hkeeps before c later hcalls ⟨e, hfailed⟩
  have hsplit := (eachStep_iff_split _ _ _).mp hkeeps before c (by simp [hcalls])
  rw [runFrom_concat, step_of_failed A rt _ c hsplit e hfailed]

end Runs

section Sample

def samplePayload (load : PyData) : PyData :=
  .dict [(.str (py "resource_util"), load), (.str (py "entropy"), load), (.str (py "environment"), load),
    (.str (py "human_impact"), .int 0)]

def sampleCall (target : PyStr) (load : PyData) : Call where
  target := .str target
  payload := samplePayload load
  clock := .ok (py "2026-01-01T00:00:00Z")
  file := none
  fault := none

-- A lone surrogate cannot be written to the file.
def unwritableCall : Call := sampleCall [chr 0xD800] (.int 1)

-- The second call is approved in the hold band, with no approval on record.
theorem unrecorded_approval_held :
    ¬ (Always (GateRun.step ScoreArith.exact sampleRuntime) (InStep ScoreArith.exact)
        (GateRun.start ⟨0, .str genesis⟩) [unwritableCall, sampleCall (py "service") (.float 0.6)] ∧
      FailuresInert ScoreArith.exact sampleRuntime (GateRun.start ⟨0, .str genesis⟩)
        [unwritableCall, sampleCall (py "service") (.float 0.6)]) := by
  rintro ⟨⟨-, hnext, -⟩, -⟩
  have hactive : ((GateRun.start ⟨0, .str genesis⟩).step ScoreArith.exact sampleRuntime
      unwritableCall).gate.active = true := by decide +kernel
  have hrecorded : ((GateRun.start ⟨0, .str genesis⟩).step ScoreArith.exact sampleRuntime
      unwritableCall).recorded.length = 0 := by decide +kernel
  have hlast := hnext.active.mp hactive
  rw [List.eq_nil_of_length_eq_zero hrecorded] at hlast
  cases hlast

example : (((GateRun.start ⟨0, .str genesis⟩).step ScoreArith.exact sampleRuntime unwritableCall).step
    ScoreArith.exact sampleRuntime (sampleCall (py "service") (.float 0.6))).recorded.map Entry.decision =
      [.approvedAdvisory] := by decide +kernel

end Sample

end V91Core.Stewardship
