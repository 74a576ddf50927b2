import V91Core.Effect.Run
import V91Core.ModelRun.Runner

namespace V91Core.ModelRun

open V91Core.Python
open V91Core.Effect

variable (rt : Runtime)

section Run

-- What the constructor has checked.
structure Configured (r : PinnedModelRunner) : Prop where
  modelDigest : r.modelDigest.length = 64 ∧ r.modelDigest.all isHexChar = true
  tokenizerDigest : r.tokenizerDigest.length = 64 ∧ r.tokenizerDigest.all isHexChar = true
  runtimeDigest : r.runtimeDigest.length = 64 ∧ r.runtimeDigest.all isHexChar = true
  precision : strip r.precision ≠ []
  backend : strip r.backend ≠ []

theorem requireDigest_eq_ok (name : String) (value : PyData) (digest : PyStr)
    (h : requireDigest name value = .ok digest) : digest.length = 64 ∧ digest.all isHexChar = true := by
  unfold requireDigest at h
  split at h
  · split at h
    · next hvalid =>
        obtain rfl := Except.ok.inj h
        exact hvalid
    · cases h
  · cases h

theorem requireText_eq_ok (value : PyData) (e : PyExc) (text : PyStr) (h : requireText value e = .ok text) :
    strip text ≠ [] := by
  unfold requireText PyData.nonBlank? at h
  split at h
  · split at h
    · cases h
    · next hblank =>
        obtain rfl := Except.ok.inj h
        exact hblank
  · cases h

theorem init_eq_ok (args : RunnerArgs) (r : PinnedModelRunner) (h : PinnedModelRunner.init args = .ok r) :
    Configured r ∧ r.emitted = [] := by
  have hsteps : ∃ modelDigest tokenizerDigest runtimeDigest seed parameters precision backend,
      requireDigest "model_digest" args.modelDigest = .ok modelDigest ∧
      requireDigest "tokenizer_digest" args.tokenizerDigest = .ok tokenizerDigest ∧
      requireDigest "runtime_digest" args.runtimeDigest = .ok runtimeDigest ∧
      requireText args.precision (runnerError "precision is required") = .ok precision ∧
      requireText args.backend (runnerError "backend is required") = .ok backend ∧
      r = ⟨modelDigest, tokenizerDigest, runtimeDigest, seed, parameters, precision, backend, []⟩ := by
    unfold PinnedModelRunner.init at h
    cases hcallable : args.callable with
    | false => simp [hcallable, bind, Except.bind] at h
    | true =>
        simp only [hcallable, Bool.not_true, Bool.false_eq_true, if_false] at h
        obtain ⟨modelDigest, hmodel, h⟩ := (bind_eq_ok _ _ _).mp h
        obtain ⟨tokenizerDigest, htokenizer, h⟩ := (bind_eq_ok _ _ _).mp h
        obtain ⟨runtimeDigest, hruntime, h⟩ := (bind_eq_ok _ _ _).mp h
        obtain ⟨seed, -, h⟩ := (bind_eq_ok _ _ _).mp h
        obtain ⟨parameters, -, h⟩ := (bind_eq_ok _ _ _).mp h
        obtain ⟨precision, hprecision, h⟩ := (bind_eq_ok _ _ _).mp h
        obtain ⟨backend, hbackend, h⟩ := (bind_eq_ok _ _ _).mp h
        refine ⟨modelDigest, tokenizerDigest, runtimeDigest, seed, parameters, precision, backend, hmodel,
          htokenizer, hruntime, hprecision, hbackend, ?_⟩
        split at h
        · obtain ⟨_, -, h⟩ := (bind_eq_ok _ _ _).mp h
          exact (Except.ok.inj h).symm
        · exact (Except.ok.inj h).symm
  obtain ⟨modelDigest, tokenizerDigest, runtimeDigest, seed, parameters, precision, backend, hmodel, htokenizer,
    hruntime, hprecision, hbackend, rfl⟩ := hsteps
  exact ⟨⟨requireDigest_eq_ok _ _ _ hmodel, requireDigest_eq_ok _ _ _ htokenizer,
    requireDigest_eq_ok _ _ _ hruntime, requireText_eq_ok _ _ _ hprecision, requireText_eq_ok _ _ _ hbackend⟩, rfl⟩

-- The record of one inference.
def PinnedModelRunner.record (r : PinnedModelRunner) (input output text : Bytes) : RunRecord :=
  ⟨r.modelDigest, r.tokenizerDigest, r.runtimeDigest, rt.sha256Hex input, rt.sha256Hex output, r.parameters,
    rt.sha256Hex text, r.seed, r.precision, r.backend⟩

-- Once the runner is configured, only the settings can keep it from building a record.
theorem run_bytes (r : PinnedModelRunner) (hr : Configured r) (input output : Bytes) :
    r.run rt (.bytes input) (.ok (.bytes output)) =
      match canonicalJson rt (.dict r.parameters) with
      | .ok text => (.ok (r.record rt input output text),
          { r with emitted := (rt.sha256Hex input, rt.sha256Hex output) :: r.emitted })
      | .error e => (.error e, r) := by
  have hbuild : buildRunManifest rt ⟨.str r.modelDigest, .str r.tokenizerDigest, .str r.runtimeDigest,
      .bytes input, .bytes output, .int r.seed, .dict r.parameters, .str r.precision, .str r.backend⟩ =
        (canonicalJson rt (.dict r.parameters)).map (r.record rt input output) := by
    have hseed : ¬ ((r.seed : Int) < 0) := by omega
    simp only [buildRunManifest, validateDigest, requireSeed, requireMapping, requireText, PyData.nonBlank?,
      sha256Bytes, ofOption, hr.modelDigest.1, hr.modelDigest.2, hr.tokenizerDigest.1, hr.tokenizerDigest.2,
      hr.runtimeDigest.1, hr.runtimeDigest.2, hr.precision, hr.backend, hseed, ne_eq, not_true_eq_false, if_false,
      if_true, Int.toNat_natCast, bind, Except.bind]
    cases canonicalJson rt (.dict r.parameters) <;> rfl
  rw [PinnedModelRunner.run, hbuild]
  cases canonicalJson rt (.dict r.parameters) <;> rfl

-- A call returns a record and remembers its two digests, or it changes nothing.
theorem run_cases (r : PinnedModelRunner) (inputBytes : PyData) (answer : Except PyExc PyData) :
    (∃ record, r.run rt inputBytes answer =
        (.ok record, { r with emitted := (record.inputDigest, record.outputDigest) :: r.emitted })) ∨
      ∃ e, r.run rt inputBytes answer = (.error e, r) := by
  unfold PinnedModelRunner.run
  split
  · split
    · next record _ => exact .inl ⟨record, rfl⟩
    · next e _ => exact .inr ⟨e, rfl⟩
  · exact .inr ⟨_, rfl⟩
  · next e => exact .inr ⟨e, rfl⟩
  · exact .inr ⟨_, rfl⟩

end Run

section Verdicts

theorem producedHere_entries (r : PinnedModelRunner) (record : RunRecord) :
    r.producedHere (.dict record.entries) = .ok (decide ((record.inputDigest, record.outputDigest) ∈ r.emitted)) :=
  rfl

-- The verdict on two run records asks only for the digests that the runner has emitted.
theorem verifyIndependentReplay_entries (r : PinnedModelRunner) (a b : RunRecord) :
    r.verifyIndependentReplay rt (.dict a.entries) (.dict b.entries) =
      if (a.inputDigest, a.outputDigest) ∈ r.emitted ∧ (b.inputDigest, b.outputDigest) ∈ r.emitted then
        .ok PinnedModelRunner.refused
      else verifyExactReplay rt (.dict a.entries) (.dict b.entries) := by
  simp only [PinnedModelRunner.verifyIndependentReplay, producedHere_entries, bind, Except.bind]
  by_cases ha : (a.inputDigest, a.outputDigest) ∈ r.emitted
  · by_cases hb : (b.inputDigest, b.outputDigest) ∈ r.emitted
    · simp [ha, hb]
    · simp [ha, hb]
  · simp [ha]

theorem verifyExactReplay_ne_refused (reference replay : PyData) :
    verifyExactReplay rt reference replay ≠ .ok PinnedModelRunner.refused := by
  have hcompare : ∀ a b, (compareRecords a b).status ≠ .selfVerificationRefused := by
    intro a b
    unfold compareRecords
    split
    · simp
    · split <;> simp
  intro h
  obtain ⟨a, -, h⟩ := (bind_eq_ok _ _ _).mp h
  obtain ⟨b, -, h⟩ := (bind_eq_ok _ _ _).mp h
  exact hcompare a b (congrArg Verdict.status (Except.ok.inj h))

end Verdicts

section History

variable {ι : Type} [DecidableEq ι]

-- A run call on one of the runners.
structure RunCall (ι : Type) where
  runner : ι
  inputBytes : PyData
  answer : Except PyExc PyData

def runStep (runners : ι → PinnedModelRunner) (call : RunCall ι) : ι → PinnedModelRunner :=
  Function.update runners call.runner ((runners call.runner).run rt call.inputBytes call.answer).2

-- The record that a call returns, with its runner.
def returned (runners : ι → PinnedModelRunner) (call : RunCall ι) : Option (ι × RunRecord) :=
  ((runners call.runner).run rt call.inputBytes call.answer).1.toOption.map fun record => (call.runner, record)

def runnersAfter (runners : ι → PinnedModelRunner) (calls : List (RunCall ι)) : ι → PinnedModelRunner :=
  runFrom (runStep rt) runners calls

def history (runners : ι → PinnedModelRunner) (calls : List (RunCall ι)) : List (ι × RunRecord) :=
  collect (runStep rt) (returned rt) runners calls

-- A run call of this runner has returned a record with the same two digests.
def Echoes (produced : List (ι × RunRecord)) (me : ι) (record : RunRecord) : Prop :=
  ∃ own, (me, own) ∈ produced ∧ own.inputDigest = record.inputDigest ∧ own.outputDigest = record.outputDigest

omit [DecidableEq ι] in
theorem echoes_concat (produced : List (ι × RunRecord)) (me j : ι) (record new : RunRecord) :
    Echoes (produced ++ [(j, new)]) me record ↔ Echoes produced me record ∨
      me = j ∧ new.inputDigest = record.inputDigest ∧ new.outputDigest = record.outputDigest := by
  constructor
  · rintro ⟨own, hmem, hsame⟩
    rcases List.mem_append.mp hmem with hold | hnew
    · exact .inl ⟨own, hold, hsame⟩
    · obtain ⟨rfl, rfl⟩ := Prod.mk.inj (List.mem_singleton.mp hnew)
      exact .inr ⟨rfl, hsame⟩
  · rintro (⟨own, hold, hsame⟩ | ⟨rfl, hsame⟩)
    · exact ⟨own, List.mem_append_left _ hold, hsame⟩
    · exact ⟨new, List.mem_append_right _ (List.mem_singleton_self _), hsame⟩

-- A runner has emitted exactly the digests of its own records.
theorem emitted_iff (runners : ι → PinnedModelRunner) (hfresh : ∀ i, (runners i).emitted = [])
    (calls : List (RunCall ι)) (me : ι) (record : RunRecord) :
    (record.inputDigest, record.outputDigest) ∈ (runnersAfter rt runners calls me).emitted ↔
      Echoes (history rt runners calls) me record := by
  induction calls using List.reverseRecOn with
  | nil => simp [runnersAfter, runFrom, history, collect, Echoes, hfresh]
  | append_singleton calls call ih =>
      have hnext : runnersAfter rt runners (calls ++ [call]) = runStep rt (runnersAfter rt runners calls) call :=
        runFrom_concat _ _ _
      have hhistory : history rt runners (calls ++ [call]) =
          history rt runners calls ++ (returned rt (runnersAfter rt runners calls) call).toList := collect_concat _ _ _
      rw [hnext, hhistory, runStep, returned]
      rcases run_cases rt (runnersAfter rt runners calls call.runner) call.inputBytes call.answer with
        ⟨new, hrun⟩ | ⟨e, hrun⟩
      · simp only [hrun, Except.toOption, Option.map_some, Option.toList_some]
        rw [echoes_concat, ← ih]
        by_cases hme : me = call.runner
        · subst hme
          rw [Function.update_self, List.mem_cons, Prod.mk.injEq]
          constructor
          · rintro (⟨hinput, houtput⟩ | hold)
            · exact .inr ⟨rfl, hinput.symm, houtput.symm⟩
            · exact .inl hold
          · rintro (hold | ⟨-, hinput, houtput⟩)
            · exact .inr hold
            · exact .inl ⟨hinput.symm, houtput.symm⟩
        · rw [Function.update_of_ne hme]
          exact (or_iff_left fun h => hme h.1).symm
      · rw [hrun]
        simp only [Function.update_eq_self, Except.toOption, Option.map_none, Option.toList_none, List.append_nil]
        exact ih

end History

section Sample

-- SHA-256 of the input `b"prompt"`, the output `b"echo:prompt"` and the settings.
def promptDigest : Digest :=
  ⟨[207, 7, 25, 78, 226, 50, 235, 83, 30, 21, 246, 144, 0, 13, 25, 132, 109, 234, 105, 207, 5, 80, 71,
    130, 101, 138, 252, 250, 203, 146, 40, 162], rfl⟩

def echoDigest : Digest :=
  ⟨[36, 68, 200, 178, 240, 53, 113, 148, 233, 73, 199, 248, 219, 25, 195, 206, 253, 38, 216, 248, 46, 70,
    135, 179, 252, 167, 47, 197, 196, 84, 7, 0], rfl⟩

def settingsDigest : Digest :=
  ⟨[228, 255, 73, 17, 105, 184, 169, 234, 120, 81, 138, 121, 114, 66, 43, 90, 36, 213, 227, 121, 14, 13,
    154, 158, 92, 191, 179, 132, 217, 182, 33, 224], rfl⟩

def prompt : Bytes := (utf8Encode (py "prompt")).getD []

def echo : Bytes := (utf8Encode (py "echo:prompt")).getD []

def settingsText : Bytes := (utf8Encode (py "\x7b\"temperature\":0\x7d")).getD []

def sampleRuntime : Runtime where
  sha256 m :=
    if m = prompt then promptDigest
    else if m = echo then echoDigest
    else if m = settingsText then settingsDigest
    else zeroDigest
  printable _ := true
  nesting := 100

def sampleArgs : RunnerArgs where
  callable := true
  modelDigest := .str (List.replicate 64 (cp 'a'))
  tokenizerDigest := .str (List.replicate 64 (cp 'b'))
  runtimeDigest := .str (List.replicate 64 (cp 'c'))
  seed := .int 7
  parameters := .dict [(.str (py "temperature"), .int 0)]
  precision := .str (py "fp16")
  backend := .str (py "cpu-reference")
  allowNondeterministic := .bool false

def sampleRunner : PinnedModelRunner :=
  ⟨List.replicate 64 (cp 'a'), List.replicate 64 (cp 'b'), List.replicate 64 (cp 'c'), 7,
    [(.str (py "temperature"), .int 0)], py "fp16", py "cpu-reference", []⟩

def sampleRecord : RunRecord := sampleRunner.record sampleRuntime prompt echo settingsText

-- Two of three runners of one configuration run the same prompt.
def sampleCalls : List (RunCall (Fin 3)) :=
  [⟨0, .bytes prompt, .ok (.bytes echo)⟩, ⟨1, .bytes prompt, .ok (.bytes echo)⟩]

theorem sample_init : PinnedModelRunner.init sampleArgs = .ok sampleRunner := by
  rfl

theorem sample_history :
    history sampleRuntime (fun _ => sampleRunner) sampleCalls = [(0, sampleRecord), (1, sampleRecord)] := by
  have hsettings : canonicalJson sampleRuntime (.dict sampleRunner.parameters) = .ok settingsText := by
    decide +kernel
  have hrun := run_bytes sampleRuntime sampleRunner (init_eq_ok sampleArgs sampleRunner sample_init).1 prompt echo
  simp only [hsettings] at hrun
  simp [history, sampleCalls, collect, returned, runStep, hrun, Except.toOption, Function.update, sampleRecord]

theorem sample_exact :
    (verifyExactReplay sampleRuntime (.dict sampleRecord.entries) (.dict sampleRecord.entries)).map Verdict.status =
      .ok .verifiedExact := by decide +kernel

end Sample

end V91Core.ModelRun
