import V91Core.Effect.Answers
import V91Core.Python.Data

namespace V91Core.Security

open V91Core.Python
open V91Core.Effect

-- The calls of a rotation: four to the provider adapter and two to the secret store.
inductive RotationOp where
  | checkStatus
  | createReplacement
  | validate (secret : PyData)
  | revokeOld
  | store (name : PyStr) (value : PyData)
  | activate (name : PyStr)

abbrev RotationOp.Res : RotationOp → Type
  | .store _ _ => Unit
  | _ => PyData

abbrev Rotation := Prog RotationOp RotationOp.Res PyExc

abbrev RotationStep := Answered RotationOp RotationOp.Res PyExc

abbrev perform (op : RotationOp) : Rotation op.Res := Prog.perform op

def activationFailed : PyStr := py "ACTIVATION_FAILED_OLD_KEY_RETAINED"

def revocationPending : PyStr := py "OLD_KEY_REVOCATION_PENDING"

def rotationSuccessful : PyStr := py "ROTATION_SUCCESSFUL"

def rotateKey (secretName approved : PyData) : Rotation PyStr :=
  match secretName with
  | .str name => do
      if name = [] then return py "INVALID_SECRET_NAME"
      if !approved.truthy then return py "APPROVAL_REQUIRED"
      let status ← perform .checkStatus
      if !status.isStr (py "HEALTHY") then return py "PROVIDER_NOT_HEALTHY"
      let newSecret ← perform .createReplacement
      if !newSecret.truthy then return py "CREATION_FAILED"
      let valid ← perform (.validate newSecret)
      if !valid.truthy then return py "VALIDATION_FAILED"
      perform (.store name newSecret)
      let active ← perform (.activate name)
      if !active.truthy then return activationFailed
      let revoked ← perform .revokeOld
      if !revoked.truthy then return revocationPending
      return rotationSuccessful
  | _ => return py "INVALID_SECRET_NAME"

section Runs

-- The secrets that can be read, by name.
abbrev Readable := PyStr → Option PyData

-- `store(name, value)` sets the readable value of that name.
def readAfter (readable : Readable) (events : List RotationStep) : Readable :=
  events.foldl (fun readable event =>
    match event with
    | ⟨.store name value, .ok _⟩ => Function.update readable name (some value)
    | _ => readable) readable

def Readable.under (readable : Readable) : PyData → Option PyData
  | .str name => readable name
  | _ => none

-- A call that neither changes the store nor revokes anything.
def RotationOp.isQuery : RotationOp → Bool
  | .store _ _ | .activate _ | .revokeOld => false
  | _ => true

-- How far a rotation gets, and how it ends.
inductive Rotated : PyData → List RotationStep → Except PyExc PyStr → Prop
  | stopped (secretName : PyData) (events : List RotationStep) (out : Except PyExc PyStr)
      (hquery : ∀ event ∈ events, event.op.isQuery = true) : Rotated secretName events out
  | storeRaised (name : PyStr) (first : List RotationStep) (secret : PyData) (e : PyExc)
      (hquery : ∀ event ∈ first, event.op.isQuery = true) :
      Rotated (.str name) (first ++ [⟨.store name secret, .error e⟩]) (.error e)
  | activateRaised (name : PyStr) (first : List RotationStep) (secret : PyData) (e : PyExc)
      (hquery : ∀ event ∈ first, event.op.isQuery = true) :
      Rotated (.str name) (first ++ [⟨.store name secret, .ok ()⟩, ⟨.activate name, .error e⟩]) (.error e)
  | notActivated (name : PyStr) (first : List RotationStep) (secret active : PyData)
      (hquery : ∀ event ∈ first, event.op.isQuery = true) (hactive : active.truthy = false) :
      Rotated (.str name) (first ++ [⟨.store name secret, .ok ()⟩, ⟨.activate name, .ok active⟩])
        (.ok activationFailed)
  | activated (name : PyStr) (first : List RotationStep) (secret active : PyData) (revoked : Except PyExc PyData)
      (out : Except PyExc PyStr) (hquery : ∀ event ∈ first, event.op.isQuery = true)
      (hactive : active.truthy = true)
      (hout : ∀ status, out = .ok status → status = rotationSuccessful ∨ status = revocationPending) :
      Rotated (.str name) (first ++ [⟨.store name secret, .ok ()⟩, ⟨.activate name, .ok active⟩,
        ⟨.revokeOld, revoked⟩]) out

theorem rotateKey_rotated (secretName approved : PyData) (events : List RotationStep) (out : Except PyExc PyStr)
    (h : Prog.Runs Prog.Answers (rotateKey secretName approved) events out) : Rotated secretName events out := by
  have hstop : ∀ (status : PyStr) (rest : List RotationStep) (out : Except PyExc PyStr),
      Prog.Runs Prog.Answers (Prog.ret status : Rotation PyStr) rest out → rest = [] ∧ out = .ok status :=
    fun status rest out => (Prog.runs_ret status rest out).mp
  unfold rotateKey at h
  split at h
  · next name =>
      split at h
      · obtain ⟨rfl, -⟩ := hstop _ _ _ h
        exact .stopped _ [] out (by simp)
      split at h
      · obtain ⟨rfl, -⟩ := hstop _ _ _ h
        exact .stopped _ [] out (by simp)
      rcases (Prog.runs_answers_bind _ _ _ _).mp h with ⟨healthy, rest, rfl, hcreate⟩ | ⟨e, rfl, -⟩
      swap
      · exact .stopped _ _ out (by simp [RotationOp.isQuery])
      clear h
      split at hcreate
      · obtain ⟨rfl, -⟩ := hstop _ _ _ hcreate
        exact .stopped _ _ out (by simp [RotationOp.isQuery])
      rcases (Prog.runs_answers_bind _ _ _ _).mp hcreate with ⟨secret, rest, rfl, hvalidate⟩ | ⟨e, rfl, -⟩
      swap
      · exact .stopped _ _ out (by simp [RotationOp.isQuery])
      clear hcreate
      split at hvalidate
      · obtain ⟨rfl, -⟩ := hstop _ _ _ hvalidate
        exact .stopped _ _ out (by simp [RotationOp.isQuery])
      rcases (Prog.runs_answers_bind _ _ _ _).mp hvalidate with ⟨valid, rest, rfl, hstore⟩ | ⟨e, rfl, -⟩
      swap
      · exact .stopped _ _ out (by simp [RotationOp.isQuery])
      clear hvalidate
      split at hstore
      · obtain ⟨rfl, -⟩ := hstop _ _ _ hstore
        exact .stopped _ _ out (by simp [RotationOp.isQuery])
      -- From here on the store and the old key are at stake.
      have hquery : ∀ event ∈ ([⟨.checkStatus, .ok healthy⟩, ⟨.createReplacement, .ok secret⟩,
          ⟨.validate secret, .ok valid⟩] : List RotationStep), event.op.isQuery = true := by
        simp [RotationOp.isQuery]
      rcases (Prog.runs_answers_bind _ _ _ _).mp hstore with ⟨_, rest, rfl, hactivate⟩ | ⟨e, rfl, rfl⟩
      swap
      · exact .storeRaised name _ secret e hquery
      clear hstore
      rcases (Prog.runs_answers_bind _ _ _ _).mp hactivate with ⟨active, rest, rfl, hrevoke⟩ | ⟨e, rfl, rfl⟩
      swap
      · exact .activateRaised name _ secret e hquery
      clear hactivate
      split at hrevoke
      · next hactive =>
          obtain ⟨rfl, rfl⟩ := hstop _ _ _ hrevoke
          exact .notActivated name _ secret active hquery (by simpa using hactive)
      · next hactive =>
          have htrue : active.truthy = true := by simpa using hactive
          rcases (Prog.runs_answers_bind _ _ _ _).mp hrevoke with ⟨revoked, rest, rfl, hend⟩ | ⟨e, rfl, rfl⟩
          · have hlast : rest = [] ∧ ∀ status, out = .ok status →
                status = rotationSuccessful ∨ status = revocationPending := by
              split at hend
              · obtain ⟨rfl, rfl⟩ := hstop _ _ _ hend
                exact ⟨rfl, fun status h => .inr (Except.ok.inj h).symm⟩
              · obtain ⟨rfl, rfl⟩ := hstop _ _ _ hend
                exact ⟨rfl, fun status h => .inl (Except.ok.inj h).symm⟩
            obtain ⟨rfl, hout⟩ := hlast
            exact .activated name _ secret active (.ok revoked) out hquery htrue hout
          · exact .activated name _ secret active (.error e) _ hquery htrue nofun
  · obtain ⟨rfl, -⟩ := hstop _ _ _ h
    exact .stopped _ [] out (by simp)

theorem readAfter_append (readable : Readable) (first rest : List RotationStep) :
    readAfter readable (first ++ rest) = readAfter (readAfter readable first) rest := List.foldl_append

theorem readAfter_query (readable : Readable) (events : List RotationStep)
    (hquery : ∀ event ∈ events, event.op.isQuery = true) : readAfter readable events = readable := by
  induction events generalizing readable with
  | nil => rfl
  | cons event events ih =>
      obtain ⟨hfirst, hrest⟩ := List.forall_mem_cons.mp hquery
      obtain ⟨op, answer⟩ := event
      have hsame : readAfter readable [⟨op, answer⟩] = readable := by
        cases op with
        | store name value => cases hfirst
        | _ => rfl
      rw [← List.singleton_append, readAfter_append, hsame]
      exact ih readable hrest

end Runs

section OldKey

variable (readable : Readable) (secretName : PyData) (events : List RotationStep) (out : Except PyExc PyStr)

-- A rotation that returns that it did not take place has changed nothing.
def KeepsOldKey : Prop :=
  ∀ status, out = .ok status → status ≠ rotationSuccessful → status ≠ revocationPending →
    (readAfter readable events).under secretName = readable.under secretName ∧
      ∀ event ∈ events, event.op ≠ .revokeOld

-- The old key is revoked only right after the new secret was stored and activated.
def RevokesActivated : Prop :=
  ∀ before answer after, events = before ++ ⟨.revokeOld, answer⟩ :: after →
    ∃ name first secret active, secretName = .str name ∧ active.truthy = true ∧
      before = first ++ [⟨.store name secret, .ok ()⟩, ⟨.activate name, .ok active⟩]

-- If the activation is answered with a refusal, then the new secret is the one that
-- could be read before.
def RefusedOnlyOld : Prop :=
  ∀ name secret active, secretName = .str name → ⟨.store name secret, .ok ()⟩ ∈ events →
    ⟨.activate name, .ok active⟩ ∈ events → active.truthy = false → readable name = some secret

theorem not_mem_query (events : List RotationStep) (hquery : ∀ event ∈ events, event.op.isQuery = true)
    (op : RotationOp) (hop : op.isQuery = false) (answer : Except PyExc op.Res) : ⟨op, answer⟩ ∉ events := by
  intro hmem
  have htrue := hquery _ hmem
  rw [hop] at htrue
  cases htrue

-- What changes the store or the keys is behind the queries.
theorem mem_behind_queries (first last : List RotationStep) (hquery : ∀ event ∈ first, event.op.isQuery = true)
    (op : RotationOp) (hop : op.isQuery = false) (answer : Except PyExc op.Res) :
    ⟨op, answer⟩ ∈ first ++ last ↔ ⟨op, answer⟩ ∈ last := by
  rw [List.mem_append, or_iff_right (not_mem_query first hquery op hop answer)]

theorem revokesActivated_of_no_revoke (h : ∀ answer, ⟨.revokeOld, answer⟩ ∉ events) :
    RevokesActivated secretName events := by
  rintro before answer after rfl
  exact absurd (by simp) (h answer)

theorem revokesActivated_behind (first last : List RotationStep) (hquery : ∀ event ∈ first, event.op.isQuery = true)
    (hlast : ∀ answer, ⟨.revokeOld, answer⟩ ∉ last) : RevokesActivated secretName (first ++ last) := by
  apply revokesActivated_of_no_revoke
  intro answer hmem
  exact hlast answer ((mem_behind_queries first last hquery .revokeOld rfl answer).mp hmem)

theorem refusedOnlyOld_behind (first last : List RotationStep) (hquery : ∀ event ∈ first, event.op.isQuery = true)
    (hlast : ∀ name active, ⟨.activate name, .ok active⟩ ∈ last → active.truthy = true) :
    RefusedOnlyOld readable secretName (first ++ last) := by
  intro name secret active _ _ hactivate hfalse
  have htrue := hlast name active ((mem_behind_queries first last hquery (.activate name) rfl _).mp hactivate)
  rw [htrue] at hfalse
  cases hfalse

theorem notActivated_keeps_iff (name : PyStr) (first : List RotationStep) (secret active : PyData)
    (hquery : ∀ event ∈ first, event.op.isQuery = true) (hactive : active.truthy = false) :
    KeepsOldKey readable (.str name) (first ++ [⟨.store name secret, .ok ()⟩, ⟨.activate name, .ok active⟩])
        (.ok activationFailed) ↔
      RefusedOnlyOld readable (.str name) (first ++ [⟨.store name secret, .ok ()⟩, ⟨.activate name, .ok active⟩]) := by
  have hread : readAfter readable (first ++ [⟨.store name secret, .ok ()⟩, ⟨.activate name, .ok active⟩]) =
      Function.update readable name (some secret) := by
    rw [readAfter_append, readAfter_query readable first hquery]
    rfl
  constructor
  · intro hkeeps name' secret' active' hname hstore _ _
    obtain rfl := PyData.str.inj hname
    obtain ⟨hsame, -⟩ := hkeeps activationFailed rfl (by decide +kernel) (by decide +kernel)
    rw [hread] at hsame
    have hstored : secret' = secret := by
      simpa using (mem_behind_queries first _ hquery (.store name secret') rfl _).mp hstore
    rw [hstored, ← show (Readable.under readable (.str name)) = readable name from rfl, ← hsame]
    exact Function.update_self name (some secret) readable
  · intro hrefused status _ _ _
    have hold : readable name = some secret := hrefused name secret active rfl (by simp) (by simp) hactive
    rw [hread]
    refine ⟨?_, fun event hevent hop => ?_⟩
    · change Function.update readable name (some secret) name = readable name
      rw [Function.update_self, hold]
    · obtain ⟨op, answer⟩ := event
      obtain rfl : op = .revokeOld := hop
      have hlast := (mem_behind_queries first _ hquery .revokeOld rfl answer).mp hevent
      simp at hlast

-- The revocation is the last call, and the only one of its kind.
theorem activated_revokes (name : PyStr) (first : List RotationStep) (secret active : PyData)
    (revoked : Except PyExc PyData) (hquery : ∀ event ∈ first, event.op.isQuery = true)
    (hactive : active.truthy = true) :
    RevokesActivated (.str name)
      (first ++ [⟨.store name secret, .ok ()⟩, ⟨.activate name, .ok active⟩, ⟨.revokeOld, revoked⟩]) := by
  intro before answer after hsplit
  have hnot : (⟨.revokeOld, answer⟩ : RotationStep) ∉
      first ++ [⟨.store name secret, .ok ()⟩, ⟨.activate name, .ok active⟩] := by
    rw [mem_behind_queries first _ hquery .revokeOld rfl]
    simp
  have hassoc : first ++ [⟨.store name secret, .ok ()⟩, ⟨.activate name, .ok active⟩, ⟨.revokeOld, revoked⟩] =
      (first ++ [⟨.store name secret, .ok ()⟩, ⟨.activate name, .ok active⟩]) ++ [⟨.revokeOld, revoked⟩] := by
    simp
  rw [hassoc] at hsplit
  obtain ⟨rfl, -, -⟩ := (List.append_cons_inj_of_notMem hnot (by simp)).mp hsplit
  exact ⟨name, first, secret, active, rfl, hactive, rfl⟩

-- Whatever the parties answer, the old key is revoked only after the new one is in use,
-- and a rotation that reports a failure keeps it readable unless the activation of another
-- secret was refused.
theorem rotateKey_keeps_iff (approved : PyData)
    (hrun : Prog.Runs Prog.Answers (rotateKey secretName approved) events out) :
    KeepsOldKey readable secretName events out ∧ RevokesActivated secretName events ↔
      RefusedOnlyOld readable secretName events := by
  cases rotateKey_rotated secretName approved events out hrun with
  | stopped _ _ _ hquery =>
      have hnone := not_mem_query events hquery
      refine iff_of_true ⟨?_, ?_⟩ ?_
      · intro status _ _ _
        rw [readAfter_query readable events hquery]
        refine ⟨rfl, fun event hevent hop => ?_⟩
        have htrue := hquery event hevent
        rw [hop] at htrue
        cases htrue
      · exact revokesActivated_of_no_revoke secretName events (hnone .revokeOld rfl)
      · intro name secret active _ hstore _ _
        exact absurd hstore (hnone (.store name secret) rfl _)
  | storeRaised name first secret e hquery =>
      refine iff_of_true ⟨nofun, ?_⟩ ?_
      · apply revokesActivated_behind _ _ _ hquery
        simp
      · apply refusedOnlyOld_behind _ _ _ _ hquery
        simp
  | activateRaised name first secret e hquery =>
      refine iff_of_true ⟨nofun, ?_⟩ ?_
      · apply revokesActivated_behind _ _ _ hquery
        simp
      · apply refusedOnlyOld_behind _ _ _ _ hquery
        simp
  | notActivated name first secret active hquery hactive =>
      have hrevokes : RevokesActivated (.str name)
          (first ++ [⟨.store name secret, .ok ()⟩, ⟨.activate name, .ok active⟩]) := by
        apply revokesActivated_behind _ _ _ hquery
        simp
      rw [and_iff_left hrevokes]
      exact notActivated_keeps_iff readable name first secret active hquery hactive
  | activated name first secret active revoked _ hquery hactive hout =>
      refine iff_of_true ⟨?_, ?_⟩ ?_
      · intro status hstatus hsuccess hpending
        rcases hout status hstatus with rfl | rfl
        · exact absurd rfl hsuccess
        · exact absurd rfl hpending
      · exact activated_revokes name first secret active revoked hquery hactive
      · apply refusedOnlyOld_behind _ _ _ _ hquery
        intro name' active' hmem
        simp only [List.mem_cons, List.not_mem_nil, or_false, Answered.mk.injEq, reduceCtorEq, false_and,
          false_or] at hmem
        obtain ⟨hop, hanswer⟩ := hmem
        obtain rfl := RotationOp.activate.inj hop
        rw [Except.ok.inj (eq_of_heq hanswer)]
        exact hactive

end OldKey

section Sample

-- Every answer up to the activation is a good one, and the activation is refused.
def refusedRotation (name : PyStr) (secret valid active : PyData) : List RotationStep :=
  [⟨.checkStatus, .ok (.str (py "HEALTHY"))⟩, ⟨.createReplacement, .ok secret⟩, ⟨.validate secret, .ok valid⟩,
    ⟨.store name secret, .ok ()⟩, ⟨.activate name, .ok active⟩]

theorem refusedRotation_runs (name : PyStr) (approved secret valid active : PyData) (hname : name ≠ [])
    (happroved : approved.truthy = true) (hsecret : secret.truthy = true) (hvalid : valid.truthy = true)
    (hactive : active.truthy = false) :
    Prog.Runs Prog.Answers (rotateKey (.str name) approved) (refusedRotation name secret valid active)
      (.ok activationFailed) := by
  unfold rotateKey
  simp only [hname, if_false, happroved, Bool.not_true, Bool.false_eq_true]
  refine (Prog.runs_answers_bind _ _ _ _).mpr (.inl ⟨_, _, rfl, ?_⟩)
  simp only [PyData.isStr, decide_true, Bool.not_true, Bool.false_eq_true, if_false]
  refine (Prog.runs_answers_bind _ _ _ _).mpr (.inl ⟨_, _, rfl, ?_⟩)
  simp only [hsecret, Bool.not_true, Bool.false_eq_true, if_false]
  refine (Prog.runs_answers_bind _ _ _ _).mpr (.inl ⟨_, _, rfl, ?_⟩)
  simp only [hvalid, Bool.not_true, Bool.false_eq_true, if_false]
  refine (Prog.runs_answers_bind _ _ _ _).mpr (.inl ⟨_, _, rfl, ?_⟩)
  refine (Prog.runs_answers_bind _ _ _ _).mpr (.inl ⟨_, _, rfl, ?_⟩)
  simp only [hactive, Bool.not_false, if_true]
  exact .ret _

-- The status says that the old key was retained, and the new one is read.
theorem refusedRotation_replaces (readable : Readable) (name : PyStr) (secret valid active : PyData)
    (hold : readable name ≠ some secret) :
    ¬ KeepsOldKey readable (.str name) (refusedRotation name secret valid active) (.ok activationFailed) := by
  intro hkeeps
  obtain ⟨hsame, -⟩ := hkeeps activationFailed rfl (by decide +kernel) (by decide +kernel)
  have hread : readAfter readable (refusedRotation name secret valid active) =
      Function.update readable name (some secret) := rfl
  have hnew : Readable.under (Function.update readable name (some secret)) (.str name) = some secret := by
    simp only [Readable.under, Function.update_self]
  rw [hread, hnew] at hsame
  exact hold hsame.symm

def oldSecret : Readable := Function.update (fun _ => none) (py "api") (some (.str (py "old-secret")))

def refusedSample : List RotationStep :=
  refusedRotation (py "api") (.str (py "new-secret")) (.bool true) (.bool false)

theorem refusedSample_runs :
    Prog.Runs Prog.Answers (rotateKey (.str (py "api")) (.bool true)) refusedSample (.ok activationFailed) :=
  refusedRotation_runs (py "api") (.bool true) (.str (py "new-secret")) (.bool true) (.bool false)
    (by decide +kernel) rfl (by decide +kernel) rfl rfl

theorem refused_activation_replaces_secret :
    Prog.Runs Prog.Answers (rotateKey (.str (py "api")) (.bool true)) refusedSample (.ok activationFailed) ∧
      ¬ KeepsOldKey oldSecret (.str (py "api")) refusedSample (.ok activationFailed) := by
  refine ⟨refusedSample_runs, refusedRotation_replaces oldSecret (py "api") _ _ _ ?_⟩
  rw [oldSecret, Function.update_self]
  have hne : py "old-secret" ≠ py "new-secret" := by decide +kernel
  exact fun h => hne (PyData.str.inj (Option.some.inj h))

-- A replacement that is the old secret again, whose activation is refused.
def sameSecretSample : List RotationStep :=
  refusedRotation (py "api") (.str (py "old-secret")) (.bool true) (.bool false)

-- The new secret is activated, and the provider does not revoke the old key.
def pendingSample : List RotationStep :=
  [⟨.checkStatus, .ok (.str (py "HEALTHY"))⟩, ⟨.createReplacement, .ok (.str (py "new-secret"))⟩,
    ⟨.validate (.str (py "new-secret")), .ok (.bool true)⟩, ⟨.store (py "api") (.str (py "new-secret")), .ok ()⟩,
    ⟨.activate (py "api"), .ok (.bool true)⟩, ⟨.revokeOld, .ok (.bool false)⟩]

theorem pendingSample_runs :
    Prog.Runs Prog.Answers (rotateKey (.str (py "api")) (.bool true)) pendingSample (.ok revocationPending) := by
  have hhealthy : (PyData.str (py "HEALTHY")).isStr (py "HEALTHY") = true := by decide +kernel
  have hsecret : (PyData.str (py "new-secret")).truthy = true := by decide +kernel
  have hname : py "api" ≠ [] := by decide +kernel
  have htrue : (PyData.bool true).truthy = true := rfl
  have hfalse : (PyData.bool false).truthy = false := rfl
  unfold rotateKey
  simp only [hname, if_false, htrue, Bool.not_true, Bool.false_eq_true]
  refine (Prog.runs_answers_bind _ _ _ _).mpr (.inl ⟨_, _, rfl, ?_⟩)
  simp only [hhealthy, Bool.not_true, Bool.false_eq_true, if_false]
  refine (Prog.runs_answers_bind _ _ _ _).mpr (.inl ⟨_, _, rfl, ?_⟩)
  simp only [hsecret, Bool.not_true, Bool.false_eq_true, if_false]
  refine (Prog.runs_answers_bind _ _ _ _).mpr (.inl ⟨_, _, rfl, ?_⟩)
  simp only [htrue, Bool.not_true, Bool.false_eq_true, if_false]
  refine (Prog.runs_answers_bind _ _ _ _).mpr (.inl ⟨_, _, rfl, ?_⟩)
  refine (Prog.runs_answers_bind _ _ _ _).mpr (.inl ⟨_, _, rfl, ?_⟩)
  simp only [htrue, Bool.not_true, Bool.false_eq_true, if_false]
  refine (Prog.runs_answers_bind _ _ _ _).mpr (.inl ⟨_, _, rfl, ?_⟩)
  simp only [hfalse, Bool.not_false, if_true]
  exact .ret _

theorem rotateKey_keeps_sample :
    (KeepsOldKey oldSecret (.str (py "api")) sameSecretSample (.ok activationFailed) ∧
        RevokesActivated (.str (py "api")) sameSecretSample) ∧
      (KeepsOldKey oldSecret (.str (py "api")) pendingSample (.ok revocationPending) ∧
        RevokesActivated (.str (py "api")) pendingSample) ∧
      ¬ RefusedOnlyOld oldSecret (.str (py "api")) refusedSample := by
  refine ⟨?_, ?_, ?_⟩
  · have hruns : Prog.Runs Prog.Answers (rotateKey (.str (py "api")) (.bool true)) sameSecretSample
        (.ok activationFailed) :=
      refusedRotation_runs (py "api") (.bool true) (.str (py "old-secret")) (.bool true) (.bool false)
        (by decide +kernel) rfl (by decide +kernel) rfl rfl
    refine (rotateKey_keeps_iff oldSecret (.str (py "api")) sameSecretSample (.ok activationFailed) (.bool true)
      hruns).mpr ?_
    intro name secret active hname hstore _ _
    obtain rfl := PyData.str.inj hname
    have hsecret : secret = .str (py "old-secret") := by
      simpa [sameSecretSample, refusedRotation] using hstore
    rw [hsecret, oldSecret, Function.update_self]
  · refine (rotateKey_keeps_iff oldSecret (.str (py "api")) pendingSample (.ok revocationPending) (.bool true)
      pendingSample_runs).mpr ?_
    intro name secret active _ _ hactivate hfalse
    simp only [pendingSample, List.mem_cons, List.not_mem_nil, or_false, Answered.mk.injEq, reduceCtorEq, false_and,
      false_or] at hactivate
    obtain ⟨hop, hanswer⟩ := hactivate
    obtain rfl := RotationOp.activate.inj hop
    rw [Except.ok.inj (eq_of_heq hanswer)] at hfalse
    cases hfalse
  · intro hrefused
    have hkeeps := (rotateKey_keeps_iff oldSecret (.str (py "api")) refusedSample (.ok activationFailed)
      (.bool true) refusedSample_runs).mpr hrefused
    exact refusedRotation_replaces oldSecret (py "api") _ _ _ (by
      rw [oldSecret, Function.update_self]
      have hne : py "old-secret" ≠ py "new-secret" := by decide +kernel
      exact fun h => hne (PyData.str.inj (Option.some.inj h))) hkeeps.1

end Sample

end V91Core.Security
