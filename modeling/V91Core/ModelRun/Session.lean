import V91Core.Effect.Eval
import V91Core.ModelRun.Independent

namespace V91Core.ModelRun

open V91Core.Python V91Core.Effect

def independenceClaim : PyStr := py "NODE_INDEPENDENCE_NOT_PROVABLE_BY_CODE"

def combinedByteMatch : PyStr := py "VERIFIED_EXACT_BYTE_MATCH_INDEPENDENCE_UNPROVEN"

def sessionError (msg : String) : PyExc := .replaySessionError (py msg)

-- The two nodes of a session are different runner objects.
structure TwoNodeReplay (ι : Type) where
  reference : ι
  replay : ι
  distinct : reference ≠ replay

structure ReplayResult where
  status : VerdictStatus
  reason : PyStr
  combinedStatus : PyStr
  reference : RunRecord
  replay : RunRecord
  sharedInferenceCallable : Bool
  nodeIndependence : PyStr

namespace TwoNodeReplay

variable {ι κ : Type} [DecidableEq ι] [DecidableEq κ]

-- An argument that is no runner is `none`.
def init (reference replay : Option ι) : Except PyExc (TwoNodeReplay ι) :=
  match reference, replay with
  | some reference, some replay =>
      if h : reference = replay then
        .error (sessionError
          "reference and replay must be two different runner instances; a runner cannot replay itself")
      else .ok ⟨reference, replay, h⟩
  | _, _ => .error (sessionError "both nodes must be PinnedModelRunner instances")

variable (rt : Runtime) (session : TwoNodeReplay ι)

def result (shared : Bool) (reference replay : RunRecord) (verdict : Verdict) : ReplayResult where
  status := verdict.status
  reason := verdict.reason
  combinedStatus := if verdict.status = .verifiedExact then combinedByteMatch else verdict.status.text
  reference := reference
  replay := replay
  sharedInferenceCallable := shared
  nodeIndependence := independenceClaim

-- `execute(input_bytes)`. Each runner has its callable, and `answers` is what the callables
-- do with the input.
def execute (inference : ι → κ) (runners : ι → PinnedModelRunner) (inputBytes : PyData)
    (answers : ι → Except PyExc PyData) : Except PyExc ReplayResult × (ι → PinnedModelRunner) :=
  match inputBytes with
  | .bytes _ =>
      let first := (runners session.reference).run rt inputBytes (answers session.reference)
      let runners := Function.update runners session.reference first.2
      match first.1 with
      | .error e => (.error e, runners)
      | .ok reference =>
          let second := (runners session.replay).run rt inputBytes (answers session.replay)
          let runners := Function.update runners session.replay second.2
          match second.1 with
          | .error e => (.error e, runners)
          | .ok replay =>
              ((verifyExactReplay rt (.dict reference.entries) (.dict replay.entries)).map
                (result (inference session.reference = inference session.replay) reference replay), runners)
  | _ => (.error (sessionError "input must be bytes"), runners)

-- The session with the two runners exchanged.
def swap : TwoNodeReplay ι := ⟨session.replay, session.reference, session.distinct.symm⟩

end TwoNodeReplay

section Records

variable (rt : Runtime)

-- A runner object at some time after its constructor. Only what it has emitted changes.
def Built (r : PinnedModelRunner) : Prop :=
  ∃ args, PinnedModelRunner.init args = .ok { r with emitted := [] }

theorem Built.configured (r : PinnedModelRunner) (h : Built r) : Configured r := by
  obtain ⟨args, hargs⟩ := h
  obtain ⟨⟨hmodel, htokenizer, hruntime, hprecision, hbackend⟩, -⟩ := init_eq_ok args _ hargs
  exact ⟨hmodel, htokenizer, hruntime, hprecision, hbackend⟩

theorem Built.run (r : PinnedModelRunner) (h : Built r) (inputBytes : PyData) (answer : Except PyExc PyData) :
    Built (r.run rt inputBytes answer).2 := by
  rcases run_cases rt r inputBytes answer with ⟨record, hrun⟩ | ⟨e, hrun⟩
  · rw [hrun]
    exact h
  · rw [hrun]
    exact h

theorem sha256Hex_isDigest (bytes : Bytes) :
    (rt.sha256Hex bytes).length = 64 ∧ (rt.sha256Hex bytes).all isHexChar = true :=
  ⟨hexdigest_length _, List.all_eq_true.mpr (hexdigest_chars _)⟩

theorem validateDigest_ok (name : String) (digest : PyStr)
    (h : digest.length = 64 ∧ digest.all isHexChar = true) : validateDigest name (.str digest) = .ok digest := by
  rw [validateDigest, if_neg (by rw [h.1]; simp), if_pos h.2]

-- A valid record of these settings.
structure RunRecord.Sound (record : RunRecord) : Prop where
  modelDigest : record.modelDigest.length = 64 ∧ record.modelDigest.all isHexChar = true
  tokenizerDigest : record.tokenizerDigest.length = 64 ∧ record.tokenizerDigest.all isHexChar = true
  runtimeDigest : record.runtimeDigest.length = 64 ∧ record.runtimeDigest.all isHexChar = true
  inputDigest : record.inputDigest.length = 64 ∧ record.inputDigest.all isHexChar = true
  outputDigest : record.outputDigest.length = 64 ∧ record.outputDigest.all isHexChar = true
  settings : ∃ text, canonicalJson rt (.dict record.settings) = .ok text ∧ rt.sha256Hex text = record.settingsDigest
  precision : strip record.precision ≠ []
  backend : strip record.backend ≠ []

theorem requireText_ok (text : PyStr) (e : PyExc) (h : strip text ≠ []) : requireText (.str text) e = .ok text := by
  rw [requireText, PyData.nonBlank?, if_neg h, ofOption]

theorem requireSeed_ok (n : Nat) (e : PyExc) : requireSeed (.int n) e = .ok n := by
  rw [requireSeed, if_neg (by omega), Int.toNat_natCast]

-- The separate validation accepts it.
theorem validate_entries (record : RunRecord) (h : record.Sound rt) :
    validateRunManifest rt (.dict record.entries) = .ok record := by
  obtain ⟨text, htext, hdigest⟩ := h.settings
  have hsettings : (rt.sha256Hex text).length = 64 ∧ (rt.sha256Hex text).all isHexChar = true :=
    sha256Hex_isDigest rt text
  rw [hdigest] at hsettings
  have hrequired : hasRequired record.entries = true := rfl
  have hmodel : manifestField record.entries "model_digest" = .str record.modelDigest := rfl
  have htokenizer : manifestField record.entries "tokenizer_digest" = .str record.tokenizerDigest := rfl
  have hruntime : manifestField record.entries "runtime_digest" = .str record.runtimeDigest := rfl
  have hinput : manifestField record.entries "input_digest" = .str record.inputDigest := rfl
  have houtput : manifestField record.entries "output_digest" = .str record.outputDigest := rfl
  have hversion : manifestField record.entries "schema_version" = .int 1 := rfl
  have hstatus : manifestField record.entries "status" = .str completed := rfl
  have hentries : manifestField record.entries "settings" = .dict record.settings := rfl
  have hsettingsDigest : manifestField record.entries "settings_digest" = .str record.settingsDigest := rfl
  have hseed : manifestField record.entries "seed" = .int record.seed := rfl
  have hprecision : manifestField record.entries "precision" = .str record.precision := rfl
  have hbackend : manifestField record.entries "backend" = .str record.backend := rfl
  simp only [validateRunManifest, requireMapping, hrequired, hversion, hmodel, htokenizer, hruntime, hinput, houtput,
    hentries, hsettingsDigest, hseed, hprecision, hbackend, hstatus, validateDigest_ok _ _ h.modelDigest,
    validateDigest_ok _ _ h.tokenizerDigest, validateDigest_ok _ _ h.runtimeDigest,
    validateDigest_ok _ _ h.inputDigest, validateDigest_ok _ _ h.outputDigest, validateDigest_ok _ _ hsettings,
    htext, hdigest, requireSeed_ok, requireText_ok _ _ h.precision, requireText_ok _ _ h.backend, ok_bind]
  rfl

-- Two records have the same conditions when the runners have been set up alike and the
-- settings have the same digest.
theorem firstDifference_eq_none (a b : RunRecord) :
    firstDifference a b = none ↔ a.modelDigest = b.modelDigest ∧ a.tokenizerDigest = b.tokenizerDigest ∧
      a.runtimeDigest = b.runtimeDigest ∧ a.inputDigest = b.inputDigest ∧ a.settingsDigest = b.settingsDigest ∧
      a.seed = b.seed ∧ a.precision = b.precision ∧ a.backend = b.backend := by
  simp [firstDifference, RunRecord.conditions]

theorem compareRecords_status (a b : RunRecord) :
    (compareRecords a b).status =
      if firstDifference a b = none then
        if a.outputDigest = b.outputDigest then .verifiedExact else .nondeterministic
      else .conditionsMismatch := by
  unfold compareRecords
  cases firstDifference a b with
  | some field => rfl
  | none =>
      by_cases houtput : a.outputDigest = b.outputDigest
      · simp only [houtput, if_true]
      · simp only [houtput, if_true, if_false]

end Records

section Verdict

variable (rt : Runtime)

-- The runners have been configured for the same run.
structure SameConditions (r s : PinnedModelRunner) : Prop where
  modelDigest : r.modelDigest = s.modelDigest
  tokenizerDigest : r.tokenizerDigest = s.tokenizerDigest
  runtimeDigest : r.runtimeDigest = s.runtimeDigest
  seed : r.seed = s.seed
  precision : r.precision = s.precision
  backend : r.backend = s.backend
  parameters : canonicalJson rt (.dict r.parameters) = canonicalJson rt (.dict s.parameters)

theorem record_sound (r : PinnedModelRunner) (hr : Configured r) (input output text : Bytes)
    (htext : canonicalJson rt (.dict r.parameters) = .ok text) : (r.record rt input output text).Sound rt :=
  ⟨hr.modelDigest, hr.tokenizerDigest, hr.runtimeDigest, sha256Hex_isDigest rt input, sha256Hex_isDigest rt output,
    ⟨text, htext, rfl⟩, hr.precision, hr.backend⟩

-- A run that returns has had the settings and an answer of bytes.
theorem run_eq_ok (r : PinnedModelRunner) (hr : Configured r) (input : Bytes) (answer : Except PyExc PyData)
    (record : RunRecord) (h : (r.run rt (.bytes input) answer).1 = .ok record) :
    ∃ output text, answer = .ok (.bytes output) ∧ canonicalJson rt (.dict r.parameters) = .ok text ∧
      record = r.record rt input output text := by
  have hbytes : ∃ output, answer = .ok (.bytes output) := by
    unfold PinnedModelRunner.run at h
    split at h
    · next output _ => exact ⟨output, rfl⟩
    · cases h
    · cases h
    · cases h
  obtain ⟨output, rfl⟩ := hbytes
  rw [run_bytes rt r hr] at h
  cases htext : canonicalJson rt (.dict r.parameters) with
  | error e =>
      rw [htext] at h
      cases h
  | ok text =>
      rw [htext] at h
      exact ⟨output, text, rfl, rfl, (Except.ok.inj h).symm⟩

variable {ι κ : Type} [DecidableEq ι] [DecidableEq κ]

-- What the two runs hash besides the input.
def TwoNodeReplay.hashed (session : TwoNodeReplay ι) (runners : ι → PinnedModelRunner)
    (answers : ι → Except PyExc PyData) : Set Bytes :=
  {m | ∃ i, (i = session.reference ∨ i = session.replay) ∧
    (answers i = .ok (.bytes m) ∨ canonicalJson rt (.dict (runners i).parameters) = .ok m)}

namespace TwoNodeReplay

variable (session : TwoNodeReplay ι) (inference : ι → κ) (runners : ι → PinnedModelRunner) (input : Bytes)
  (answers : ι → Except PyExc PyData)

-- The first run does not touch the other runner, and both records are valid.
theorem execute_eq (a b : RunRecord) (hfirst : ((runners session.reference).run rt (.bytes input)
      (answers session.reference)).1 = .ok a)
    (hsecond : ((runners session.replay).run rt (.bytes input) (answers session.replay)).1 = .ok b)
    (ha : a.Sound rt) (hb : b.Sound rt) :
    (session.execute rt inference runners (.bytes input) answers).1 =
      .ok (result (inference session.reference = inference session.replay) a b (compareRecords a b)) := by
  have hverdict : verifyExactReplay rt (.dict a.entries) (.dict b.entries) = .ok (compareRecords a b) := by
    rw [verifyExactReplay, validate_entries rt a ha, validate_entries rt b hb, ok_bind, ok_bind]
  simp only [execute, hfirst, Function.update_of_ne session.distinct.symm, hsecond, hverdict]
  rfl

-- The status by the conditions of the runners and their answers.
theorem execute_status (hbuilt : ∀ i, Built (runners i))
    (hreference : ∃ record, ((runners session.reference).run rt (.bytes input)
      (answers session.reference)).1 = .ok record)
    (hreplay : ∃ record, ((runners session.replay).run rt (.bytes input) (answers session.replay)).1 = .ok record)
    (hsha : rt.CollisionFree (session.hashed rt runners answers)) :
    ∃ result, (session.execute rt inference runners (.bytes input) answers).1 = .ok result ∧
      (result.status = .verifiedExact ↔ SameConditions rt (runners session.reference) (runners session.replay) ∧
        answers session.reference = answers session.replay) ∧
      (result.status = .nondeterministic ↔ SameConditions rt (runners session.reference) (runners session.replay) ∧
        answers session.reference ≠ answers session.replay) ∧
      (result.status = .conditionsMismatch ↔
        ¬ SameConditions rt (runners session.reference) (runners session.replay)) := by
  obtain ⟨a, hfirst⟩ := hreference
  obtain ⟨b, hsecond⟩ := hreplay
  have hconfigured := fun i => (hbuilt i).configured
  obtain ⟨output, text, hanswer, htext, rfl⟩ := run_eq_ok rt _ (hconfigured session.reference) input _ a hfirst
  obtain ⟨output', text', hanswer', htext', rfl⟩ := run_eq_ok rt _ (hconfigured session.replay) input _ b hsecond
  have houtput : rt.sha256Hex output = rt.sha256Hex output' ↔ answers session.reference = answers session.replay := by
    rw [hanswer, hanswer', Except.ok.injEq, PyData.bytes.injEq]
    refine ⟨fun h => ?_, congrArg _⟩
    exact hsha.eq ⟨session.reference, .inl rfl, .inl hanswer⟩ ⟨session.replay, .inr rfl, .inl hanswer'⟩ h
  have hsettings : rt.sha256Hex text = rt.sha256Hex text' ↔
    canonicalJson rt (.dict (runners session.reference).parameters) =
      canonicalJson rt (.dict (runners session.replay).parameters) := by
    rw [htext, htext', Except.ok.injEq]
    refine ⟨fun h => ?_, congrArg _⟩
    exact hsha.eq ⟨session.reference, .inl rfl, .inr htext⟩ ⟨session.replay, .inr rfl, .inr htext'⟩ h
  have hconditions : firstDifference ((runners session.reference).record rt input output text)
      ((runners session.replay).record rt input output' text') = none ↔
        SameConditions rt (runners session.reference) (runners session.replay) := by
    rw [firstDifference_eq_none]
    constructor
    · rintro ⟨hmodel, htokenizer, hruntime, -, hdigest, hseed, hprecision, hbackend⟩
      exact ⟨hmodel, htokenizer, hruntime, hseed, hprecision, hbackend, hsettings.mp hdigest⟩
    · rintro ⟨hmodel, htokenizer, hruntime, hseed, hprecision, hbackend, hparameters⟩
      exact ⟨hmodel, htokenizer, hruntime, rfl, hsettings.mpr hparameters, hseed, hprecision, hbackend⟩
  refine ⟨_, session.execute_eq rt inference runners input answers _ _ hfirst hsecond
    (record_sound rt _ (hconfigured _) input output text htext)
    (record_sound rt _ (hconfigured _) input output' text' htext'), ?_⟩
  have hstatus := compareRecords_status ((runners session.reference).record rt input output text)
    ((runners session.replay).record rt input output' text')
  have hdigests : ((runners session.reference).record rt input output text).outputDigest =
      ((runners session.replay).record rt input output' text').outputDigest ↔
        answers session.reference = answers session.replay := houtput
  simp only [result, hstatus]
  by_cases hsame : SameConditions rt (runners session.reference) (runners session.replay)
  · rw [if_pos (hconditions.mpr hsame)]
    by_cases hequal : answers session.reference = answers session.replay
    · rw [if_pos (hdigests.mpr hequal)]
      simp [hsame, hequal]
    · rw [if_neg fun h => hequal (hdigests.mp h)]
      simp [hsame, hequal]
  · rw [if_neg fun h => hsame (hconditions.mp h)]
    simp [hsame]

theorem sameConditions_comm (r s : PinnedModelRunner) : SameConditions rt r s ↔ SameConditions rt s r := by
  have hsymm : ∀ r s, SameConditions rt r s → SameConditions rt s r := fun r s h =>
    ⟨h.modelDigest.symm, h.tokenizerDigest.symm, h.runtimeDigest.symm, h.seed.symm, h.precision.symm,
      h.backend.symm, h.parameters.symm⟩
  exact ⟨hsymm r s, hsymm s r⟩

-- A session of two runners whose runs return has the verdict that the configurations and
-- the outputs ask for, whichever of the runners is the reference.
theorem replay_verdict_exact (hbuilt : ∀ i, Built (runners i))
    (hreference : ∃ record, ((runners session.reference).run rt (.bytes input)
      (answers session.reference)).1 = .ok record)
    (hreplay : ∃ record, ((runners session.replay).run rt (.bytes input) (answers session.replay)).1 = .ok record)
    (hsha : rt.CollisionFree (session.hashed rt runners answers)) :
    ∃ result, (session.execute rt inference runners (.bytes input) answers).1 = .ok result ∧
      (result.status = .verifiedExact ↔ SameConditions rt (runners session.reference) (runners session.replay) ∧
        answers session.reference = answers session.replay) ∧
      (result.status = .nondeterministic ↔ SameConditions rt (runners session.reference) (runners session.replay) ∧
        answers session.reference ≠ answers session.replay) ∧
      (result.status = .conditionsMismatch ↔
        ¬ SameConditions rt (runners session.reference) (runners session.replay)) ∧
      ((session.swap.execute rt inference runners (.bytes input) answers).1.map ReplayResult.status) =
        .ok result.status := by
  obtain ⟨result, hexecute, hexact, hother, hmismatch⟩ :=
    session.execute_status rt inference runners input answers hbuilt hreference hreplay hsha
  have hhashed : session.swap.hashed rt runners answers = session.hashed rt runners answers := by
    ext m
    exact exists_congr fun i => and_congr_left fun _ => or_comm
  obtain ⟨swapped, hswapped, hexact', hother', hmismatch'⟩ :=
    session.swap.execute_status rt inference runners input answers hbuilt hreplay hreference (hhashed ▸ hsha)
  refine ⟨result, hexecute, hexact, hother, hmismatch, ?_⟩
  have hcomm : SameConditions rt (runners session.swap.reference) (runners session.swap.replay) ↔
      SameConditions rt (runners session.reference) (runners session.replay) := sameConditions_comm rt _ _
  have hanswers : answers session.swap.reference = answers session.swap.replay ↔
      answers session.reference = answers session.replay := eq_comm
  rw [hcomm, hanswers, ← hexact] at hexact'
  rw [hcomm, Ne, hanswers, ← Ne, ← hother] at hother'
  rw [hcomm, ← hmismatch] at hmismatch'
  rw [hswapped]
  refine congrArg Except.ok ?_
  by_cases hsame : SameConditions rt (runners session.reference) (runners session.replay)
  · by_cases hequal : answers session.reference = answers session.replay
    · rw [hexact'.mpr (hexact.mpr ⟨hsame, hequal⟩), hexact.mpr ⟨hsame, hequal⟩]
    · rw [hother'.mpr (hother.mpr ⟨hsame, hequal⟩), hother.mpr ⟨hsame, hequal⟩]
  · rw [hmismatch'.mpr (hmismatch.mpr hsame), hmismatch.mpr hsame]

end TwoNodeReplay

end Verdict

section Sample

def sampleSession : TwoNodeReplay Bool := ⟨false, true, by decide⟩

def sampleAnswers (_ : Bool) : Except PyExc PyData := .ok (.bytes echo)

theorem sample_settings : canonicalJson sampleRuntime (.dict sampleRunner.parameters) = .ok settingsText := by
  decide +kernel

theorem sample_hashed :
    sampleSession.hashed sampleRuntime (fun _ => sampleRunner) sampleAnswers ⊆ {echo, settingsText} := by
  rintro m ⟨i, -, hm | hm⟩
  · exact .inl (PyData.bytes.inj (Except.ok.inj hm)).symm
  · rw [sample_settings] at hm
    exact .inr (Except.ok.inj hm).symm

-- Two runners of one configuration echo the same prompt.
theorem replay_verdict_sample : ∃ result,
    (sampleSession.execute sampleRuntime (fun i : Bool => i) (fun _ => sampleRunner) (.bytes prompt) sampleAnswers).1 =
      .ok result ∧ result.status = .verifiedExact := by
  have hbuilt : Built sampleRunner := ⟨sampleArgs, sample_init⟩
  have hrun : ∃ record, (sampleRunner.run sampleRuntime (.bytes prompt) (.ok (.bytes echo))).1 = .ok record := by
    rw [run_bytes sampleRuntime sampleRunner hbuilt.configured, sample_settings]
    exact ⟨_, rfl⟩
  have hne : sampleRuntime.sha256 echo ≠ sampleRuntime.sha256 settingsText := by decide +kernel
  have hfree : sampleRuntime.CollisionFree {echo, settingsText} := by
    rintro x (rfl | rfl) y (rfl | rfl) h
    · rfl
    · exact absurd h hne
    · exact absurd h.symm hne
    · rfl
  obtain ⟨result, hresult, hexact, -⟩ := sampleSession.replay_verdict_exact sampleRuntime (fun i : Bool => i)
    (fun _ => sampleRunner) prompt sampleAnswers (fun _ => hbuilt) hrun hrun (hfree.mono sample_hashed)
  exact ⟨result, hresult, hexact.mpr ⟨⟨rfl, rfl, rfl, rfl, rfl, rfl, rfl⟩, rfl⟩⟩

end Sample

end V91Core.ModelRun
