import V91Core.Control.Streak
import V91Core.Effect.Eval

namespace V91Core.Control

open V91Core.Python V91Core.Effect

variable {cfg : Config}

-- What opening and reading the state file gives.
def readAnswer : Option Bytes → Except PyExc Bytes
  | none => .error .fileNotFound
  | some content => .ok content

def readStep (content : Option Bytes) : SysStep := ⟨.readState, readAnswer content⟩

section Outcome

variable (rt : Runtime)

-- The counter in the file: a count that is not negative, in an object.
def CountsTo (content : Option Bytes) (count : Nat) : Prop :=
  ∃ bytes text data, content = some bytes ∧ decodedText bytes = some text ∧ loadsText rt text = .ok (.obj data) ∧
    Json.lookup (py "low_resource_samples") data = some (.int count)

-- The file is text, and the JSON parser finds an object in it or reports a syntax error.
def StateReadable : Option Bytes → Prop
  | none => True
  | some content => ∃ text, decodedText content = some text ∧
      ((∃ data, loadsText rt text = .ok (.obj data)) ∨ ∃ msg pos, loadsText rt text = .error (.jsonDecode msg pos))

-- How `read_low_sample_count` ends.
def readOutcome : Option Bytes → Except PyExc Nat
  | none => .ok 0
  | some content =>
      match lowSampleCount rt content with
      | .ok lowSamples => .ok lowSamples
      | .error e => if corruptState e then .ok 0 else .error e

-- What follows the answer of the reading.
def afterRead (cfg : Config) (r : Except PyExc Bytes) : Action Nat :=
  Prog.catching (fun e => if corruptState e then .ret 0 else .raise e)
    ((Prog.ofExcept r : Action Bytes) >>= fun content => Prog.ofExcept (lowSampleCount cfg.rt content))

theorem afterRead_outcome (content : Option Bytes) (steps : List SysStep) (out : Except PyExc Nat) :
    (afterRead cfg (readAnswer content)).Runs SysAns steps out ↔ steps = [] ∧ out = readOutcome cfg.rt content := by
  cases content with
  | none => exact Prog.runs_ret 0 steps out
  | some content =>
      rw [readAnswer]
      cases hcount : lowSampleCount cfg.rt content with
      | ok lowSamples =>
          have hret : afterRead cfg (.ok content) = .ret lowSamples := by
            simp only [afterRead, Prog.ofExcept, Prog.bind_ret, hcount, Prog.catching]
          have hout : readOutcome cfg.rt (some content) = .ok lowSamples := by rw [readOutcome, hcount]
          rw [hret, hout]
          exact Prog.runs_ret lowSamples steps out
      | error e =>
          have hhandled : afterRead cfg (.ok content) = if corruptState e then .ret 0 else .raise e := by
            simp only [afterRead, Prog.ofExcept, Prog.bind_ret, hcount, Prog.catching]
          have hout : readOutcome cfg.rt (some content) = if corruptState e then .ok 0 else .error e := by
            rw [readOutcome, hcount]
          rw [hhandled, hout]
          by_cases hcorrupt : corruptState e = true
          · rw [if_pos hcorrupt, if_pos hcorrupt]
            exact Prog.runs_ret 0 steps out
          · rw [if_neg hcorrupt, if_neg hcorrupt]
            exact Prog.runs_raise e steps out

theorem readLowSampleCount_runs (content : Option Bytes) (out : Except PyExc Nat) :
    (readLowSampleCount cfg).Runs SysAns [readStep content] out ↔ out = readOutcome cfg.rt content := by
  have hcall : readLowSampleCount cfg = .call .readState (afterRead cfg) := rfl
  rw [hcall, Prog.runs_call]
  constructor
  · rintro ⟨step, r, rest, hsteps, hans, hrest⟩
    obtain ⟨rfl, rfl⟩ := List.cons.inj hsteps
    cases hans
    exact ((afterRead_outcome content [] out).mp hrest).2
  · rintro rfl
    exact ⟨readStep content, readAnswer content, [], rfl, .answered .readState _ nofun,
      (afterRead_outcome content [] _).mpr ⟨rfl, rfl⟩⟩

theorem loadsText_error (text : PyStr) (e : PyExc) (h : loadsText rt text = .error e) :
    (∃ msg pos, e = .jsonDecode msg pos) ∨ corruptState e = false := by
  unfold loadsText at h
  split at h
  · cases h
  · exact .inl ⟨_, _, (Except.error.inj h).symm⟩
  · obtain rfl := Except.error.inj h
    exact .inr rfl
  · obtain rfl := Except.error.inj h
    exact .inr rfl
  · obtain rfl := Except.error.inj h
    exact .inr rfl

-- What the text of the file stands for.
theorem lowSampleCount_of_text (content : Bytes) (text : PyStr) (htext : decodedText content = some text) :
    lowSampleCount rt content = loadsText rt text >>= fun j =>
      match j with
      | .obj data =>
          match (Json.lookup (py "low_resource_samples") data).getD (.int 0) with
          | .int count => .ok (if count < 0 then 0 else min count.toNat lowSamplesRequired)
          | _ => .ok 0
      | _ => .error .attributeError := by
  rw [lowSampleCount, htext]
  rfl

theorem lowSampleCount_object (content : Bytes) (text : PyStr) (data : List (PyStr × Json))
    (htext : decodedText content = some text) (hdata : loadsText rt text = .ok (.obj data)) :
    ∃ lowSamples, lowSampleCount rt content = .ok lowSamples ∧ (lowSamples = 0 ∨ ∃ count,
      Json.lookup (py "low_resource_samples") data = some (.int (count : Nat)) ∧
        lowSamples = min count lowSamplesRequired) := by
  rw [lowSampleCount_of_text rt content text htext, hdata, ok_bind]
  dsimp only
  cases hlookup : Json.lookup (py "low_resource_samples") data with
  | none => exact ⟨0, rfl, .inl rfl⟩
  | some value =>
      cases value with
      | int count =>
          by_cases hneg : count < 0
          · refine ⟨0, ?_, .inl rfl⟩
            rw [Option.getD_some]
            dsimp only
            rw [if_pos hneg]
          · refine ⟨min count.toNat lowSamplesRequired, ?_, .inr ⟨count.toNat, ?_, rfl⟩⟩
            · rw [Option.getD_some]
              dsimp only
              rw [if_neg hneg]
            · rw [Int.toNat_of_nonneg (by omega)]
      | _ => exact ⟨0, rfl, .inl rfl⟩

-- The parser's other answers are not caught.
theorem readOutcome_isOk_iff (content : Option Bytes) :
    (∃ lowSamples, readOutcome rt content = .ok lowSamples) ↔ StateReadable rt content := by
  cases content with
  | none => exact iff_of_true ⟨0, rfl⟩ trivial
  | some content =>
      rw [readOutcome, StateReadable]
      cases htext : decodedText content with
      | none =>
          have hraises : lowSampleCount rt content = .error .unicodeDecode := by
            rw [lowSampleCount, htext]
            rfl
          rw [hraises]
          exact iff_of_false (by simp [corruptState, PyExc.isOSError]) (by simp)
      | some text =>
          cases hloads : loadsText rt text with
          | ok j =>
              cases j with
              | obj data =>
                  obtain ⟨lowSamples, hlow, -⟩ := lowSampleCount_object rt content text data htext hloads
                  rw [hlow]
                  exact iff_of_true ⟨lowSamples, rfl⟩ ⟨text, rfl, .inl ⟨data, hloads⟩⟩
              | _ =>
                  rw [lowSampleCount_of_text rt content text htext, hloads]
                  refine iff_of_false (by simp [corruptState, PyExc.isOSError]) ?_
                  simp [hloads]
          | error e =>
              have hraises : lowSampleCount rt content = .error e := by
                rw [lowSampleCount_of_text rt content text htext, hloads]
                rfl
              rw [hraises]
              rcases loadsText_error rt text e hloads with ⟨msg, pos, rfl⟩ | hother
              · exact iff_of_true ⟨0, rfl⟩ ⟨text, rfl, .inr ⟨msg, pos, hloads⟩⟩
              · refine iff_of_false ?_ ?_
                · simp [hother]
                · rintro ⟨text', htext', hread⟩
                  obtain rfl := Option.some.inj htext'
                  rw [hloads] at hread
                  rcases hread with ⟨data, hdata⟩ | ⟨msg, pos, hsyntax⟩
                  · cases hdata
                  · obtain rfl := Except.error.inj hsyntax
                    cases hother

theorem readOutcome_counts (content : Option Bytes) (lowSamples : Nat)
    (h : readOutcome rt content = .ok lowSamples) :
    lowSamples ≤ lowSamplesRequired ∧
      (lowSamples ≠ 0 → ∃ count, CountsTo rt content count ∧ lowSamples = min count lowSamplesRequired) := by
  have hzero : ∀ n, (.ok 0 : Except PyExc Nat) = .ok n → n ≤ lowSamplesRequired ∧ (n ≠ 0 →
      ∃ count, CountsTo rt content count ∧ n = min count lowSamplesRequired) := by
    intro n hn
    obtain rfl := Except.ok.inj hn
    exact ⟨Nat.zero_le _, fun hne => absurd rfl hne⟩
  cases content with
  | none => exact hzero lowSamples h
  | some content =>
      rw [readOutcome] at h
      split at h
      · next found hlow =>
          obtain rfl := Except.ok.inj h
          obtain ⟨text, htext, hbind⟩ := (bind_eq_ok _ _ _).mp hlow
          have htext : decodedText content = some text := by
            cases hcase : decodedText content with
            | none =>
                rw [hcase] at htext
                cases htext
            | some s =>
                rw [hcase] at htext
                rw [Except.ok.inj htext]
          rw [lowSampleCount_of_text rt content text htext] at hlow
          obtain ⟨j, hloads, hcount⟩ := (bind_eq_ok _ _ _).mp hlow
          cases j with
          | obj data =>
              obtain ⟨lowSamples, hlow', hcases⟩ := lowSampleCount_object rt content text data htext hloads
              rw [lowSampleCount_of_text rt content text htext] at hlow'
              obtain rfl := Except.ok.inj (hlow.symm.trans hlow')
              rcases hcases with rfl | ⟨count, hlookup, rfl⟩
              · exact hzero 0 rfl
              · exact ⟨by omega, fun _ => ⟨count, ⟨content, text, data, rfl, htext, hloads, hlookup⟩, rfl⟩⟩
          | _ => cases hcount
      · split at h
        · exact hzero lowSamples h
        · cases h

end Outcome

section Harmless

variable (cfg)

-- The call reads this file and the cycle goes on to write the next one.
def GoesOn (content : Option Bytes) (c : Cycle cfg) : Prop :=
  ∀ r ∈ c.calls, r.op = .readLowSampleCount → r.steps = [readStep content] → ∃ w ∈ c.calls, ∃ n, w.op = .writeState n

structure Harmless (content : Option Bytes) : Prop where
  returns : ∃ lowSamples, (readLowSampleCount cfg).Runs SysAns [readStep content] (.ok lowSamples)
  counts : ∀ out, (readLowSampleCount cfg).Runs SysAns [readStep content] out → ∃ lowSamples, out = .ok lowSamples ∧
    lowSamples ≤ lowSamplesRequired ∧
      (lowSamples ≠ 0 → ∃ count, CountsTo cfg.rt content count ∧ lowSamples = min count lowSamplesRequired)
  goesOn : ∀ c : Cycle cfg, GoesOn cfg content c

theorem counted_of_readable (content : Option Bytes) (h : StateReadable cfg.rt content) (r : Call cfg)
    (hop : r.op = .readLowSampleCount) (hsteps : r.steps = [readStep content]) : r.counted ≠ none := by
  obtain ⟨op, steps, answer, runs⟩ := r
  obtain rfl : op = .readLowSampleCount := hop
  obtain rfl : steps = [readStep content] := hsteps
  obtain ⟨lowSamples, hout⟩ := (readOutcome_isOk_iff cfg.rt content).mpr h
  obtain rfl := (readLowSampleCount_runs content answer).mp runs
  revert runs
  rw [hout]
  exact fun _ => Option.some_ne_none lowSamples

theorem goesOn_of_readable (content : Option Bytes) (h : StateReadable cfg.rt content) (c : Cycle cfg) :
    GoesOn cfg content c := by
  intro r hr hop hsteps
  have hcounted := counted_of_readable cfg content h r hop hsteps
  have hcalls := c.stateCalls
  generalize c.calls = calls at hr hcalls
  cases hcalls with
  | unobserved _ _ hquiet =>
      have hstate := hquiet r hr
      rw [Call.usesState, hop] at hstate
      cases hstate
  | uncounted o r' s hobserved _ hnone =>
      rcases List.mem_cons.mp hr with rfl | hr
      · obtain ⟨op, steps, answer, runs⟩ := r
        obtain rfl : op = .readLowSampleCount := hop
        cases hobserved
      · obtain rfl := List.mem_singleton.mp hr
        exact absurd hnone hcounted
  | decided o r' w s lowSamples rest _ _ hwrite _ => exact ⟨w, by simp, _, hwrite⟩

-- The state file does no harm exactly when it is readable, and what `write_state` puts in
-- place is read back.
theorem state_harmless_iff : (∀ content, Harmless cfg content ↔ StateReadable cfg.rt content) ∧
    ∀ lowSamples now content, stateContent cfg.rt lowSamples now = .ok content →
      StateReadable cfg.rt (some content) ∧
        (readLowSampleCount cfg).Runs SysAns [readStep (some content)] (.ok (min lowSamples lowSamplesRequired)) := by
  refine ⟨fun content => ⟨fun h => ?_, fun h => ?_⟩, fun lowSamples now content h => ?_⟩
  · obtain ⟨lowSamples, hruns⟩ := h.returns
    have hout := (readLowSampleCount_runs content _).mp hruns
    exact (readOutcome_isOk_iff cfg.rt content).mp ⟨lowSamples, hout.symm⟩
  · obtain ⟨lowSamples, hout⟩ := (readOutcome_isOk_iff cfg.rt content).mpr h
    refine ⟨⟨lowSamples, (readLowSampleCount_runs content _).mpr hout.symm⟩, fun out hruns => ?_,
      goesOn_of_readable cfg content h⟩
    obtain rfl := (readLowSampleCount_runs content out).mp hruns
    exact ⟨lowSamples, hout, readOutcome_counts cfg.rt content lowSamples hout⟩
  · have hlow := lowSampleCount_stateContent cfg.rt lowSamples now content h
    have hout : readOutcome cfg.rt (some content) = .ok (min lowSamples lowSamplesRequired) := by
      rw [readOutcome, hlow]
    exact ⟨(readOutcome_isOk_iff cfg.rt _).mp ⟨_, hout⟩, (readLowSampleCount_runs _ _).mpr hout.symm⟩

-- An undecodable byte, and an array.
theorem corrupt_state_raises :
    (∀ out, (readLowSampleCount sampleConfig).Runs SysAns [readStep (some [0xFF])] out ↔ out = .error .unicodeDecode) ∧
      ∀ out, (readLowSampleCount sampleConfig).Runs SysAns [readStep (some [0x5B, 0x5D])] out ↔
        out = .error .attributeError := by
  have hbyte : readOutcome sampleConfig.rt (some [0xFF]) = .error .unicodeDecode := by decide +kernel
  have harray : readOutcome sampleConfig.rt (some [0x5B, 0x5D]) = .error .attributeError := by decide +kernel
  refine ⟨fun out => ?_, fun out => ?_⟩
  · rw [readLowSampleCount_runs, hbyte]
  · rw [readLowSampleCount_runs, harray]

end Harmless

end V91Core.Control
