import V91Core.Control.Machine
import V91Core.Effect.Run
import V91Core.Json.Chars

namespace V91Core.Control

open V91Core.Python V91Core.Effect V91Core.Audit

section Content

theorem statePayload_chars (lowSamples : Nat) (now : UtcTime) :
    Json.AllChars Json.Printable (statePayload lowSamples now) := by
  have hall : [py "low_resource_samples", py "updated_at_utc"].all
      (fun key => key.all fun c => 0x20 ≤ c.val ∧ c.val < 0x7F) = true := by decide +kernel
  have hkeys : ∀ key ∈ [py "low_resource_samples", py "updated_at_utc"], ∀ c ∈ key, Json.Printable c := by
    simpa only [List.all_eq_true, decide_eq_true_eq] using hall
  simp only [statePayload, Json.AllChars, Json.AllCharsFields, field, text, and_true]
  exact ⟨hkeys _ (by simp), trivial, hkeys _ (by simp), now.property⟩

theorem statePayload_wf (lowSamples : Nat) (now : UtcTime) : Json.Wf (statePayload lowSamples now) := by
  refine ⟨?_, trivial, trivial, trivial⟩
  show [py "low_resource_samples", py "updated_at_utc"].Nodup
  decide

theorem order_statePayload (lowSamples : Nat) (now : UtcTime) (st : Json.Style) :
    Json.order st (statePayload lowSamples now) = statePayload lowSamples now := by
  have hle : strLe (py "low_resource_samples") (py "updated_at_utc") = true := by decide +kernel
  have hsorted : Json.sortKeys [field "low_resource_samples" (.int lowSamples), text "updated_at_utc" now.val] =
      [field "low_resource_samples" (.int lowSamples), text "updated_at_utc" now.val] := by
    simp [Json.sortKeys, field, text, hle]
  rw [statePayload, Json.order_obj, hsorted, ite_self]
  simp only [List.map_cons, List.map_nil, field, text, Json.order_atom st (.int lowSamples) rfl,
    Json.order_atom st (.str now.val) rfl]

-- What `write_state` puts in place is read back as the count it was given.
theorem lowSampleCount_stateContent (rt : Runtime) (lowSamples : Nat) (now : UtcTime) (content : Bytes)
    (h : stateContent rt lowSamples now = .ok content) :
    lowSampleCount rt content = .ok (min lowSamples lowSamplesRequired) := by
  obtain ⟨payload, hpayload, hbytes⟩ := (bind_eq_ok _ _ _).mp h
  rw [dumps_eq_ok, Json.encode_printable_strings _ _ _ (statePayload_chars lowSamples now)] at hpayload
  rw [encodeUtf8_eq_ok] at hbytes
  have hline : IsLine payload := by
    obtain ⟨rest, hrest⟩ := Json.encode_obj_start _ _ _ payload hpayload
    exact ⟨by rw [hrest]; simp, Json.encode_printable _ _ _ _ hpayload⟩
  have htext := decodedText_append [] content [] payload hline rfl hbytes
  rw [List.nil_append, List.nil_append] at htext
  have hloads := Json.loads_padded _ rfl rt.nesting _ (statePayload_wf lowSamples now) payload [] [cp '\n']
    hpayload (by simp) (by simp only [List.mem_singleton, forall_eq]; decide)
  rw [List.nil_append] at hloads
  rw [order_statePayload, ← loadsText_eq_ok] at hloads
  simp only [lowSampleCount, htext, ofOption]
  rw [bind_eq_ok]
  refine ⟨_, rfl, ?_⟩
  rw [bind_eq_ok]
  refine ⟨_, hloads, ?_⟩
  simp only [statePayload]
  have hlookup : Json.lookup (py "low_resource_samples") [field "low_resource_samples" (.int lowSamples),
      text "updated_at_utc" now.val] = some (.int lowSamples) := rfl
  rw [hlookup, Option.getD_some]
  simp only [if_neg (Int.not_lt.mpr (Int.natCast_nonneg lowSamples)), Int.toNat_natCast]
  rfl

end Content

namespace StateFile

def after (file : StateFile) (step : SysStep) : StateFile :=
  match step with
  | ⟨.openTemp, .ok _⟩ => { file with temp := [] }
  | ⟨.writeTemp content, .ok _⟩ => { file with temp := content }
  | ⟨.replaceState, .ok _⟩ => ⟨some file.temp, []⟩
  | _ => file

-- A reading that succeeds gets the content.
def Allows (file : StateFile) (step : SysStep) : Prop :=
  match step with
  | ⟨.readState, .ok content⟩ => file.content = some content
  | _ => True

end StateFile

def SysOp.inert : SysOp → Bool
  | .openTemp | .writeTemp _ | .replaceState => false
  | _ => true

-- The state file has been replaced.
def replaced : SysStep := ⟨.replaceState, .ok ()⟩

section Steps

variable {cfg : Config} {α : Type}

theorem after_inert (file : StateFile) (step : SysStep) (h : step.op.inert = true) : file.after step = file := by
  obtain ⟨op, r⟩ := step
  cases op with
  | openTemp => cases h
  | writeTemp content => cases h
  | replaceState => cases h
  | _ => rfl

theorem runFrom_inert (file : StateFile) (steps : List SysStep) (h : ∀ step ∈ steps, step.op.inert = true) :
    runFrom StateFile.after file steps = file := by
  induction steps generalizing file with
  | nil => rfl
  | cons step steps ih =>
      obtain ⟨hstep, hsteps⟩ := List.forall_mem_cons.mp h
      have hrest := ih file hsteps
      rw [runFrom, List.foldl_cons, after_inert file step hstep]
      exact hrest

theorem content_after (file : StateFile) (step : SysStep) (h : step ≠ replaced) :
    (file.after step).content = file.content := by
  obtain ⟨op, r⟩ := step
  cases op with
  | replaceState =>
      cases r with
      | ok a => exact absurd rfl h
      | error e => rfl
  | openTemp => cases r <;> rfl
  | writeTemp content => cases r <;> rfl
  | _ => rfl

theorem runFrom_content (file : StateFile) (steps : List SysStep) (h : ∀ step ∈ steps, step ≠ replaced) :
    (runFrom StateFile.after file steps).content = file.content := by
  induction steps generalizing file with
  | nil => rfl
  | cons step steps ih =>
      obtain ⟨hstep, hsteps⟩ := List.forall_mem_cons.mp h
      have hrest := ih (file.after step) hsteps
      rw [← content_after file step hstep]
      exact hrest

theorem emits_op (P : SysStep → Prop) (op : SysOp) (hop : ∀ r, P ⟨op, r⟩) : (perform op).Emits SysAns P := by
  refine Prog.emits_perform op fun step r hans => ?_
  cases hans
  exact hop r

-- Only `write_state` touches the state file.
theorem body_inert (op : CycleOp) (hop : ∀ n, op ≠ .writeState n) :
    (body cfg op).Emits SysAns fun step => step.op.inert = true := by
  cases op with
  | collectSnapshot =>
      refine (emits_op _ .readDocker fun _ => rfl).bind fun workers => (Prog.emits_ofExcept _).bind fun observed => ?_
      cases observed with
      | nil => exact Prog.emits_raise _
      | cons first others => exact (emits_op _ .utcNow fun _ => rfl).bind fun _ => Prog.emits_ret _
  | readLowSampleCount =>
      refine Prog.Emits.catching ((emits_op _ .readState fun _ => rfl).bind fun _ => Prog.emits_ofExcept _)
        fun e => ?_
      split
      · exact Prog.emits_ret _
      · exact Prog.emits_raise _
  | writeState n => exact absurd rfl (hop n)
  | uuid4 => exact emits_op _ .uuid4 fun _ => rfl
  | utcNow => exact emits_op _ .utcNow fun _ => rfl
  | appendAudit event =>
      refine Prog.emits_lift _ _ (fun step op r hans => ?_) _
      cases hans
      rfl
  | scaleWorker n =>
      simp only [body, scaleWorker]
      split
      · exact emits_op _ (.composeUp n) fun _ => rfl
      · exact Prog.emits_raise _

-- The count that a state file stands for.
def storedSamples (rt : Runtime) : Option Bytes → Nat
  | none => 0
  | some content =>
      match lowSampleCount rt content with
      | .ok lowSamples => lowSamples
      | .error _ => 0

theorem readLowSampleCount_le (steps : List SysStep) (lowSamples : Nat) (file : StateFile)
    (h : (readLowSampleCount cfg).Runs SysAns steps (.ok lowSamples))
    (hallows : EachStep StateFile.after StateFile.Allows file steps) :
    lowSamples ≤ storedSamples cfg.rt file.content := by
  rcases (Prog.runs_catching _ _ _ _).mp h with ⟨n, hn, hread⟩ | ⟨e, first, rest, rfl, -, hhandler⟩
  · obtain rfl := Except.ok.inj hn
    obtain ⟨content, first, rest, rfl, hfirst, hcount⟩ := (Prog.runs_bind_ok _ _ _ _).mp hread
    obtain ⟨step, rfl, hans⟩ := (Prog.runs_perform _ _ _).mp hfirst
    cases hans
    have hcontent : file.content = some content := hallows.1
    have hlow := ((Prog.runs_ofExcept _ _ _).mp hcount).2.symm
    simp only [storedSamples, hcontent, hlow, Nat.le_refl]
  · split at hhandler
    · obtain ⟨-, hn⟩ := (Prog.runs_ret _ _ _).mp hhandler
      obtain rfl := Except.ok.inj hn
      exact Nat.zero_le _
    · obtain ⟨-, hn⟩ := (Prog.runs_raise _ _ _).mp hhandler
      cases hn

theorem emits_not_replaced (op : SysOp) (hop : op ≠ .replaceState) :
    (perform op).Emits SysAns fun step => step ≠ replaced := by
  refine emits_op _ op fun r h => hop ?_
  exact congrArg Answered.op h

theorem fillTemp_not_replaced (lowSamples : Nat) (now : UtcTime) :
    (fillTemp cfg lowSamples now).Emits SysAns fun step => step ≠ replaced :=
  (emits_not_replaced .openTemp (by simp)).bind fun _ => Prog.Emits.finishing
    ((Prog.emits_ofExcept _).bind fun content => (emits_not_replaced (.writeTemp content) (by simp)).bind fun _ =>
      emits_not_replaced .syncTemp (by simp)) (emits_not_replaced .closeTemp (by simp))

theorem removeTemp_inert : removeTemp.Emits SysAns fun step => step.op.inert = true := by
  refine Prog.Emits.catching (emits_op _ .unlinkTemp fun _ => rfl) fun e => ?_
  split
  · exact Prog.emits_ret _
  · exact Prog.emits_raise _

theorem ne_replaced_of_inert (step : SysStep) (h : step.op.inert = true) : step ≠ replaced := by
  rintro rfl
  cases h

-- The temporary file is complete when it is about to be moved.
theorem fillTemp_content (lowSamples : Nat) (now : UtcTime) (steps : List SysStep) (file : StateFile)
    (h : (fillTemp cfg lowSamples now).Runs SysAns steps (.ok ())) :
    ∃ content, stateContent cfg.rt lowSamples now = .ok content ∧
      (runFrom StateFile.after file steps).temp = content := by
  obtain ⟨_, _, _, rfl, hopen, hfill⟩ := (Prog.runs_bind_ok _ _ _ _).mp h
  obtain ⟨step, rfl, hans⟩ := (Prog.runs_perform _ _ _).mp hopen
  cases hans
  obtain ⟨outcome, first, rest, rfl, hfirst, ⟨hclose, rfl⟩ | ⟨e, he, -⟩⟩ := (Prog.runs_finishing _ _ _ _).mp hfill
  swap
  · cases he
  obtain ⟨step, rfl, hans⟩ := (Prog.runs_perform _ _ _).mp hclose
  cases hans
  obtain ⟨content, _, _, rfl, hdumps, hbody⟩ := (Prog.runs_bind_ok _ _ _ _).mp hfirst
  obtain ⟨rfl, hcontent⟩ := (Prog.runs_ofExcept _ _ _).mp hdumps
  obtain ⟨_, _, _, rfl, hwrite, hsync⟩ := (Prog.runs_bind_ok _ _ _ _).mp hbody
  obtain ⟨step, rfl, hans⟩ := (Prog.runs_perform _ _ _).mp hwrite
  cases hans
  obtain ⟨step, rfl, hans⟩ := (Prog.runs_perform _ _ _).mp hsync
  cases hans
  exact ⟨content, hcontent.symm, rfl⟩

-- Either the file stays, or it holds the new count.
theorem writeState_content (lowSamples : Nat) (steps : List SysStep) (out : Except PyExc Unit)
    (file : StateFile) (h : (writeState cfg lowSamples).Runs SysAns steps out) :
    (∀ step ∈ steps, step ≠ replaced) ∨ replaced ∈ steps ∧ ∃ now content,
      stateContent cfg.rt lowSamples now = .ok content ∧
        (runFrom StateFile.after file steps).content = some content := by
  have hop : ∀ (op : SysOp) (step : SysStep) (r : Except PyExc op.Res), op ≠ .replaceState → SysAns step op r →
      step ≠ replaced := by
    intro op step r hne hans
    cases hans
    exact fun h => hne (congrArg Answered.op h)
  rcases (Prog.runs_perform_bind _ _ _ _).mp h with ⟨s₁, _, rest, rfl, h₁, h⟩ | ⟨s₁, e, rfl, rfl, h₁⟩
  swap
  · exact .inl (by simpa using hop _ _ _ (by simp) h₁)
  rcases (Prog.runs_perform_bind _ _ _ _).mp h with ⟨s₂, _, rest, rfl, h₂, h⟩ | ⟨s₂, e, rfl, rfl, h₂⟩
  swap
  · exact .inl (by simpa using ⟨hop _ _ _ (by simp) h₁, hop _ _ _ (by simp) h₂⟩)
  rcases (Prog.runs_perform_bind _ _ _ _).mp h with ⟨s₃, now, rest, rfl, h₃, h⟩ | ⟨s₃, e, rfl, rfl, h₃⟩
  swap
  · exact .inl (by simpa using ⟨hop _ _ _ (by simp) h₁, hop _ _ _ (by simp) h₂, hop _ _ _ (by simp) h₃⟩)
  have hstart : ∀ step ∈ [s₁, s₂, s₃], step ≠ replaced := by
    simpa using ⟨hop _ _ _ (by simp) h₁, hop _ _ _ (by simp) h₂, hop _ _ _ (by simp) h₃⟩
  obtain ⟨outcome, first, last, rfl, hfirst, hlast⟩ := (Prog.runs_finishing _ _ _ _).mp h
  have hremove : ∀ step ∈ last, step.op.inert = true := by
    rcases hlast with ⟨hlast, -⟩ | ⟨e, -, hlast⟩
    · exact removeTemp_inert _ _ hlast
    · exact removeTemp_inert _ _ hlast
  have hremove' : ∀ step ∈ last, step ≠ replaced := fun step hstep => ne_replaced_of_inert step (hremove step hstep)
  have hfree : ∀ steps : List SysStep, (∀ step ∈ steps, step ≠ replaced) →
      ∀ step ∈ s₁ :: s₂ :: s₃ :: (steps ++ last), step ≠ replaced := by
    intro steps hsteps
    have hall := List.forall_mem_append.mpr ⟨hstart, List.forall_mem_append.mpr ⟨hsteps, hremove'⟩⟩
    simpa using hall
  rcases (Prog.runs_bind _ _ _ _).mp hfirst with ⟨_, fill, rest, rfl, hfill, hreplace⟩ | ⟨e, rfl, hfill⟩
  swap
  · exact .inl (hfree first (fillTemp_not_replaced _ _ _ _ hfill))
  obtain ⟨step, rfl, hans⟩ := (Prog.runs_perform _ _ _).mp hreplace
  cases hans
  cases outcome with
  | error e =>
      refine .inl (hfree _ (List.forall_mem_append.mpr ⟨fillTemp_not_replaced _ _ _ _ hfill, ?_⟩))
      simp [replaced]
  | ok _ =>
      obtain ⟨content, hcontent, htemp⟩ := fillTemp_content lowSamples now fill
        (runFrom StateFile.after file [s₁, s₂, s₃]) hfill
      refine .inr ⟨by simp [replaced], now, content, hcontent, ?_⟩
      have hsteps : s₁ :: s₂ :: s₃ :: (fill ++ [⟨.replaceState, .ok ()⟩] ++ last) =
          [s₁, s₂, s₃] ++ (fill ++ (replaced :: last)) := by simp [replaced]
      rw [hsteps, runFrom, List.foldl_append, List.foldl_append, List.foldl_cons]
      rw [show List.foldl StateFile.after _ last = runFrom StateFile.after _ last from rfl, runFrom_inert _ _ hremove]
      exact congrArg some htemp

end Steps

end V91Core.Control
