import V91Core.Observer.Report

namespace V91Core.Observer

open V91Core.Python V91Core.Effect V91Core.Worker

section Evidence

variable (s : Shared)

def CountSeen (dir : Dir) (count : Option Nat) : Prop :=
  ∃ listing, (dir, listing) ∈ s.counted ∧ countOf listing = .ok count

structure Counted (counts : QueueCounts) : Prop where
  pending : CountSeen s .pending counts.pending
  processing : CountSeen s .processing counts.processing
  done : CountSeen s .done counts.done
  failed : CountSeen s .failed counts.failed

-- The snapshot was taken from what the observer has been told.
structure TakenFrom (rt : Runtime) (data : Snapshot) (log : Except PyExc LogRead) : Prop where
  read : log ∈ s.logs
  counted : Counted s data.queueCounts
  taken : ∃ now : Audit.UtcTime, snapshot (rt.below 2) now.val data.queueCounts log = .ok data

-- The report is the first one or the whole text of such a snapshot.
def Placed (rt : Runtime) (initial : Option Bytes) : Prop :=
  s.report = initial ∨ ∃ data log content, TakenFrom s rt data log ∧ reportContent rt data = .ok content ∧
    s.report = some content

end Evidence

section Rely

-- What has been told stays told, and no other process writes while this one is alive.
structure Grows (i : Nat) (s s' : Shared) : Prop where
  live : s.live ≤ s'.live
  logs : s.logs ⊆ s'.logs
  counted : s.counted ⊆ s'.counted
  temp : s.live = i + 1 → s'.live = i + 1 → s'.temp = s.temp

theorem Grows.refl (i : Nat) (s : Shared) : Grows i s s := ⟨le_refl _, fun _ h => h, fun _ h => h, fun _ _ => rfl⟩

theorem Grows.trans {i : Nat} {s s' s'' : Shared} (h : Grows i s s') (h' : Grows i s' s'') : Grows i s s'' := by
  refine ⟨h.live.trans h'.live, fun _ hmem => h'.logs (h.logs hmem), fun _ hmem => h'.counted (h.counted hmem), ?_⟩
  intro hlive hlive''
  have hbefore := h.live
  have hafter := h'.live
  have hlive' : s'.live = i + 1 := by omega
  rw [h'.temp hlive' hlive'', h.temp hlive hlive']

variable (rt : Runtime) (initial : Option Bytes)

def contract : Contract system where
  Inv s := Placed s rt initial
  Rely := Grows
  Guar i s s' := ∀ j, j ≠ i → Grows j s s'
  rely_refl := Grows.refl
  rely_trans _ _ _ _ := Grows.trans
  guar_refl _ s j _ := .refl j s
  rely_of_guar _ j _ _ hne hguar := hguar j hne.symm
  inv_of_env s s' hinv henv := by
    obtain rfl : s' = s := henv
    exact hinv
  rely_of_env i s s' _ henv := by
    obtain rfl : s' = s := henv
    exact .refl i s'

-- What does not depend on the files.
def Steady (P : Shared → Prop) : Prop := ∀ s s', s.logs ⊆ s'.logs → s.counted ⊆ s'.counted → P s → P s'

def Stable (i : Nat) (P : Shared → Prop) : Prop := ∀ s s', Grows i s s' → P s → P s'

variable {P Q : Shared → Prop} {i : Nat}

theorem Steady.stable (h : Steady P) : Stable i P := fun s s' hgrows => h s s' hgrows.logs hgrows.counted

theorem Steady.and (hP : Steady P) (hQ : Steady Q) : Steady fun s => P s ∧ Q s :=
  fun s s' hlogs hcounted h => ⟨hP s s' hlogs hcounted h.1, hQ s s' hlogs hcounted h.2⟩

theorem steady_countSeen (dir : Dir) (count : Option Nat) : Steady fun s => CountSeen s dir count := by
  rintro s s' - hcounted ⟨listing, hmem, hcount⟩
  exact ⟨listing, hcounted hmem, hcount⟩

theorem steady_log (log : Except PyExc LogRead) : Steady fun s => log ∈ s.logs := fun _ _ hlogs _ h => hlogs h

theorem steady_takenFrom (data : Snapshot) (log : Except PyExc LogRead) : Steady fun s => TakenFrom s rt data log := by
  intro s s' hlogs hcounted h
  have hcount := h.counted
  refine ⟨hlogs h.read, ⟨?_, ?_, ?_, ?_⟩, h.taken⟩
  · exact steady_countSeen _ _ s s' hlogs hcounted hcount.pending
  · exact steady_countSeen _ _ s s' hlogs hcounted hcount.processing
  · exact steady_countSeen _ _ s s' hlogs hcounted hcount.done
  · exact steady_countSeen _ _ s s' hlogs hcounted hcount.failed

-- No operation takes back what has been told.
theorem acts_tells (s : Shared) (op : ObserverOp) (r : Except PyExc op.Res) (s' : Shared) (h : Acts s op r s') :
    s'.live = s.live ∧ s.logs ⊆ s'.logs ∧ s.counted ⊆ s'.counted := by
  cases h with
  | countTasks => exact ⟨rfl, fun _ h => h, fun _ h => List.mem_cons_of_mem _ h⟩
  | readLog => exact ⟨rfl, fun _ h => List.mem_cons_of_mem _ h, fun _ h => h⟩
  | _ => exact ⟨rfl, fun _ h => h, fun _ h => h⟩

theorem acts_guar (s : Shared) (op : ObserverOp) (r : Except PyExc op.Res) (s' : Shared) (hlive : s.live = i + 1)
    (h : Acts s op r s') : ∀ j, j ≠ i → Grows j s s' := by
  intro j hj
  obtain ⟨hsame, hlogs, hcounted⟩ := acts_tells s op r s' h
  refine ⟨hsame.ge, hlogs, hcounted, fun hother => ?_⟩
  exact absurd (Nat.succ.inj (hother.symm.trans hlive)) hj

theorem acts_report (s : Shared) (op : ObserverOp) (r : Except PyExc op.Res) (s' : Shared) (h : Acts s op r s')
    (hreplace : op ≠ .replaceReport) : s'.report = s.report := by
  cases h with
  | replaceReport => exact absurd rfl hreplace
  | _ => rfl

theorem placed_grows {s s' : Shared} (h : Placed s rt initial) (hreport : s'.report = s.report)
    (hlogs : s.logs ⊆ s'.logs) (hcounted : s.counted ⊆ s'.counted) : Placed s' rt initial := by
  rcases h with h | ⟨data, log, content, htaken, hcontent, h⟩
  · exact .inl (hreport.trans h)
  · exact .inr ⟨data, log, content, steady_takenFrom rt data log s s' hlogs hcounted htaken, hcontent, hreport.trans h⟩

end Rely

section Rules

variable {rt : Runtime} {initial : Option Bytes} {i : Nat} {P : Shared → Prop} {s : Shared}

-- A result has this property.
def Gives {α : Type} (Q : α → Shared → Prop) (s : Shared) : Except PyExc α → Prop
  | .ok a => Q a s
  | .error _ => True

theorem sat_then {α β : Type} {Q : α → Shared → Prop} {R : β → Shared → Prop} {p : Action α} {f : α → Action β}
    (h : (contract rt initial).Sat i (Gives Q) p s)
    (hf : ∀ a s', Q a s' → (contract rt initial).Sat i (Gives R) (f a) s') :
    (contract rt initial).Sat i (Gives R) (p >>= f) s :=
  h.bind (fun s' a _ hq => hf a s' hq) fun _ _ _ _ => trivial

theorem sat_ret {α : Type} {Q : α → Shared → Prop} (a : α) (hQ : Stable i (Q a)) (h : Q a s) :
    (contract rt initial).Sat i (Gives Q) (.ret a : Action α) s := fun s' hrely _ => hQ s s' hrely h

theorem sat_lifted {α : Type} {Q : α → Shared → Prop} (x : Except PyExc α) (hQ : ∀ a, Stable i (Q a))
    (h : ∀ a, x = .ok a → Q a s) : (contract rt initial).Sat i (Gives Q) (Prog.ofExcept x) s := by
  cases x with
  | ok a => exact sat_ret a (hQ a) (h a rfl)
  | error e => exact fun _ _ _ => trivial

-- The rule for an operation that leaves the report alone, with what it answers.
theorem sat_act {op : ObserverOp} (hreplace : op ≠ .replaceReport) (hboot : op ≠ .boot) (hP : Stable i P) (h : P s)
    {post : Shared → Except PyExc op.Res → Prop} (hpost : ∀ r, Stable i fun s => post s r)
    (hstep : ∀ s r s', P s → s.live = i + 1 → Acts s op r s' → post s' r) :
    (contract rt initial).Sat i post (perform op) s := by
  refine Contract.sat_perform fun s₁ hrely hinv r s₂ hexec => ?_
  cases hexec with
  | boot => exact absurd rfl hboot
  | acts _ _ _ hlive hacts =>
      obtain ⟨-, hlogs, hcounted⟩ := acts_tells s₁ op r s₂ hacts
      have hplaced := placed_grows rt initial hinv (acts_report s₁ op r s₂ hacts hreplace) hlogs hcounted
      refine ⟨hplaced, acts_guar s₁ op r s₂ hlive hacts, fun s₃ hrely' _ => ?_⟩
      exact hpost r s₂ s₃ hrely' (hstep s₁ r s₂ (hP s s₁ hrely h) hlive hacts)

theorem Gives.stable {α : Type} {Q : α → Shared → Prop} (hQ : ∀ a, Stable i (Q a)) (r : Except PyExc α) :
    Stable i fun s => Gives Q s r := by
  cases r with
  | ok a => exact hQ a
  | error e => exact fun _ _ _ _ => trivial

-- An operation whose answer does not matter.
theorem sat_keep (op : ObserverOp) (hreplace : op ≠ .replaceReport) (hboot : op ≠ .boot) (hP : Steady P) (h : P s) :
    (contract rt initial).Sat i (Gives fun _ s' => P s') (perform op) s := by
  refine sat_act hreplace hboot hP.stable h (Gives.stable fun _ => hP.stable) fun s r s' h _ hacts => ?_
  obtain ⟨-, hlogs, hcounted⟩ := acts_tells s op r s' hacts
  cases r with
  | ok b => exact hP s s' hlogs hcounted h
  | error e => trivial

theorem sat_countTasks (dir : Dir) (hP : Steady P) (h : P s) :
    (contract rt initial).Sat i (Gives fun count s' => P s' ∧ CountSeen s' dir count) (countTasks dir) s := by
  have hpost : ∀ listing : Except PyExc Nat, Steady fun s => P s ∧ (dir, listing) ∈ s.counted := fun listing =>
    hP.and fun _ _ _ hcounted hmem => hcounted hmem
  have hlisted : (contract rt initial).Sat i (fun s' listing => P s' ∧ (dir, listing) ∈ s'.counted)
      (perform (.countTasks dir)) s := by
    refine sat_act (by simp) (by simp) hP.stable h (fun r => (hpost r).stable) fun s r s' h _ hacts => ?_
    cases hacts with
    | countTasks => exact ⟨hP s _ (fun _ h => h) (fun _ h => List.mem_cons_of_mem _ h) h, List.mem_cons_self⟩
    | quiet _ _ hop => cases hop
  refine hlisted.attempt.bind ?_ fun _ _ _ _ => trivial
  rintro s' listing - ⟨outcome, houtcome, hP', hmem⟩
  obtain rfl := Except.ok.inj houtcome
  exact sat_lifted _ (fun count => (hP.and (steady_countSeen dir count)).stable) fun count hcount =>
    ⟨hP', listing, hmem, hcount⟩

theorem sat_readLog (hP : Steady P) (h : P s) :
    (contract rt initial).Sat i (Gives fun log s' => P s' ∧ log ∈ s'.logs) (perform .readLog).attempt s := by
  have hpost : ∀ log : Except PyExc LogRead, Steady fun s => P s ∧ log ∈ s.logs := fun log => hP.and (steady_log log)
  have hread : (contract rt initial).Sat i (fun s' log => P s' ∧ log ∈ s'.logs) (perform .readLog) s := by
    refine sat_act (by simp) (by simp) hP.stable h (fun r => (hpost r).stable) fun s r s' h _ hacts => ?_
    cases hacts with
    | readLog => exact ⟨hP s _ (fun _ h => List.mem_cons_of_mem _ h) (fun _ h => h) h, List.mem_cons_self⟩
    | quiet _ _ hop => cases hop
  refine hread.attempt.mono fun s' r _ hr => ?_
  obtain ⟨outcome, rfl, hlog⟩ := hr
  exact hlog

end Rules

section Observation

variable (cfg : Config) (initial : Option Bytes) (i : Nat) (s : Shared)

theorem queueCounts_of_snapshot (rt : Runtime) (now : PyStr) (counts : QueueCounts) (log : Except PyExc LogRead)
    (data : Snapshot) (h : snapshot rt now counts log = .ok data) : data.queueCounts = counts := by
  obtain ⟨audit, -, hdata⟩ := (bind_eq_ok _ _ _).mp h
  obtain rfl := Except.ok.inj hdata
  rfl

theorem sat_takeSnapshot : (contract cfg.rt initial).Sat i (Gives fun data s' => ∃ log, TakenFrom s' cfg.rt data log)
    (takeSnapshot cfg) s := by
  have htrue : Steady fun _ => True := fun _ _ _ _ _ => trivial
  refine sat_then (sat_countTasks .pending htrue trivial) fun pending s₁ h₁ => ?_
  have hP₁ := htrue.and (steady_countSeen .pending pending)
  refine sat_then (sat_countTasks .processing hP₁ h₁) fun processing s₂ h₂ => ?_
  have hP₂ := hP₁.and (steady_countSeen .processing processing)
  refine sat_then (sat_countTasks .done hP₂ h₂) fun done s₃ h₃ => ?_
  have hP₃ := hP₂.and (steady_countSeen .done done)
  refine sat_then (sat_countTasks .failed hP₃ h₃) fun failed s₄ h₄ => ?_
  have hP₄ := hP₃.and (steady_countSeen .failed failed)
  refine sat_then (sat_readLog hP₄ h₄) fun log s₅ h₅ => ?_
  refine sat_then (sat_keep .utcNow (by simp) (by simp) (hP₄.and (steady_log log)) h₅) fun now s₆ h₆ => ?_
  refine sat_lifted _ (fun data => ?_) fun data hdata => ?_
  · rintro s s' hgrows ⟨log, h⟩
    exact ⟨log, (steady_takenFrom cfg.rt data log).stable s s' hgrows h⟩
  · obtain ⟨⟨⟨⟨⟨-, hpending⟩, hprocessing⟩, hdone⟩, hfailed⟩, hlog⟩ := h₆
    have hcounts := queueCounts_of_snapshot _ now.val _ log data hdata
    refine ⟨log, hlog, ?_, now, ?_⟩
    · rw [hcounts]
      exact ⟨hpending, hprocessing, hdone, hfailed⟩
    · rw [hcounts]
      exact hdata

-- The temporary file of the process, as long as it is alive.
def TempHolds (content : Bytes) (s : Shared) : Prop := i + 1 ≤ s.live ∧ (s.live = i + 1 → s.temp = some content)

theorem stable_tempHolds (content : Bytes) : Stable i (TempHolds i content) := by
  rintro s s' hgrows ⟨hstarted, htemp⟩
  have hlive := hgrows.live
  refine ⟨hstarted.trans hlive, fun halive => ?_⟩
  have hbefore : s.live = i + 1 := by omega
  exact (hgrows.temp hbefore halive).trans (htemp hbefore)

variable {s}

-- The whole report has been written next to the old one.
def Written (data : Snapshot) (log : Except PyExc LogRead) (s : Shared) : Prop :=
  ∃ content, reportContent cfg.rt data = .ok content ∧ TempHolds i content s ∧ TakenFrom s cfg.rt data log

theorem stable_written (data : Snapshot) (log : Except PyExc LogRead) : Stable i (Written cfg i data log) := by
  rintro s s' hgrows ⟨content, hcontent, htemp, htaken⟩
  exact ⟨content, hcontent, stable_tempHolds i content s s' hgrows htemp,
    (steady_takenFrom cfg.rt data log).stable s s' hgrows htaken⟩

theorem sat_writeTemp (data : Snapshot) (log : Except PyExc LogRead) (h : TakenFrom s cfg.rt data log) :
    (contract cfg.rt initial).Sat i (Gives fun _ s' => Written cfg i data log s')
      (perform (.writeTemp (reportContent cfg.rt data))) s := by
  refine sat_act (by simp) (by simp) (steady_takenFrom cfg.rt data log).stable h
    (Gives.stable fun _ => stable_written cfg i data log) fun s r s' h hlive hacts => ?_
  generalize hcontent : reportContent cfg.rt data = content at hacts
  cases hacts with
  | writeTemp content =>
      exact ⟨content, hcontent, ⟨hlive.ge, fun _ => rfl⟩,
        steady_takenFrom cfg.rt data log s _ (fun _ h => h) (fun _ h => h) h⟩
  | tornTemp => trivial
  | quiet _ _ hop => cases hop

theorem sat_syncTemp (data : Snapshot) (log : Except PyExc LogRead) (h : Written cfg i data log s) :
    (contract cfg.rt initial).Sat i (Gives fun _ s' => Written cfg i data log s') (perform .syncTemp) s := by
  refine sat_act (by simp) (by simp) (stable_written cfg i data log) h
    (Gives.stable fun _ => stable_written cfg i data log) fun s r s' h hlive hacts => ?_
  cases hacts with
  | quiet =>
      cases r with
      | ok b => exact h
      | error e => trivial

-- The report is replaced by a whole one.
theorem sat_replaceReport (data : Snapshot) (log : Except PyExc LogRead) (h : Written cfg i data log s) :
    (contract cfg.rt initial).Sat i (Gives fun _ _ => True) (perform .replaceReport) s := by
  refine Contract.sat_perform fun s₁ hrely hinv r s₂ hexec => ?_
  have htrivial : ∀ s₃, Gives (fun _ _ => True) s₃ r := by
    intro s₃
    cases r <;> trivial
  cases hexec with
  | acts _ _ _ hlive hacts =>
      refine ⟨?_, acts_guar s₁ _ r s₂ hlive hacts, fun s₃ _ _ => htrivial s₃⟩
      cases hacts with
      | replaceReport content htemp =>
          obtain ⟨whole, hwhole, ⟨-, hholds⟩, htaken⟩ := stable_written cfg i data log s s₁ hrely h
          obtain rfl := Option.some.inj (htemp.symm.trans (hholds hlive))
          refine .inr ⟨data, log, content, ?_, hwhole, rfl⟩
          exact steady_takenFrom cfg.rt data log s₁ _ (fun _ h => h) (fun _ h => h) htaken
      | quiet => exact hinv

theorem sat_atomicWrite (data : Snapshot) (h : ∃ log, TakenFrom s cfg.rt data log) :
    (contract cfg.rt initial).Sat i (Gives fun _ _ => True) (atomicWrite cfg data) s := by
  obtain ⟨log, h⟩ := h
  have htaken := steady_takenFrom cfg.rt data log
  refine sat_then (sat_keep .makeParent (by simp) (by simp) htaken h) fun _ s₁ h₁ => ?_
  refine sat_then (sat_keep .openTemp (by simp) (by simp) htaken h₁) fun _ s₂ h₂ => ?_
  refine sat_then (sat_writeTemp cfg initial i data log h₂) fun _ s₃ h₃ => ?_
  refine sat_then (sat_syncTemp cfg initial i data log h₃) fun _ s₄ h₄ => ?_
  exact sat_replaceReport cfg initial i data log h₄

theorem steady_true : Steady fun _ => True := fun _ _ _ _ _ => trivial

theorem sat_iteration : (contract cfg.rt initial).Sat i (Gives fun _ _ => True) (iteration cfg) s := by
  refine sat_then (sat_takeSnapshot cfg initial i s) fun data s₁ h₁ => ?_
  refine sat_then (sat_atomicWrite cfg initial i data h₁) fun _ s₂ _ => ?_
  refine sat_then (sat_lifted _ (fun _ => steady_true.stable) fun _ _ => trivial) fun line s₃ _ => ?_
  refine sat_then (sat_keep (.print line) (by simp) (by simp) steady_true trivial) fun _ s₄ _ => ?_
  exact sat_keep .sleep (by simp) (by simp) steady_true trivial

-- By induction over the rounds of the loop.
theorem sat_observe (rounds : Nat) :
    (contract cfg.rt initial).Sat i (Gives fun _ _ => True) (observe cfg rounds) s := by
  induction rounds generalizing s with
  | zero => exact sat_ret () steady_true.stable trivial
  | succ rounds ih =>
      refine sat_then (sat_keep .stopped (by simp) (by simp) steady_true trivial) fun stopped s₁ _ => ?_
      cases stopped with
      | true => exact sat_ret () steady_true.stable trivial
      | false => exact sat_then (sat_iteration cfg initial i) fun _ s₂ _ => ih

theorem sat_main (rounds : Nat) : (contract cfg.rt initial).Sat i (Gives fun _ _ => True) (main cfg rounds) s := by
  unfold main
  split
  · exact sat_ret 2 steady_true.stable trivial
  · refine sat_then (sat_keep .makeLayout (by simp) (by simp) steady_true trivial) fun _ s₁ _ => ?_
    exact sat_then (sat_observe cfg initial i rounds) fun _ s₂ _ => sat_ret 0 steady_true.stable trivial

theorem sat_boot : (contract cfg.rt initial).Sat i (Gives fun _ _ => True) (perform .boot) s := by
  refine Contract.sat_perform fun s₁ _ hinv r s₂ hexec => ?_
  cases hexec with
  | boot hnext =>
      refine ⟨placed_grows cfg.rt initial hinv rfl (fun _ h => h) (fun _ h => h), fun j hj => ?_, fun _ _ _ => trivial⟩
      exact ⟨by simp [hnext], fun _ h => h, fun _ h => h, fun _ _ => rfl⟩
  | acts _ _ _ hlive hacts =>
      cases hacts with
      | quiet _ _ hop => cases hop

theorem sat_life (rounds : Nat) : (contract cfg.rt initial).Sat i (Gives fun _ _ => True) (life cfg rounds) s :=
  sat_then (sat_boot cfg initial i) fun _ _ _ => sat_main cfg initial i rounds

end Observation

-- Whatever fails and whenever an observer is killed, the report is a whole one.
theorem report_placed (cfg : Config) (rounds : Nat → Nat) (initial : Option Bytes) (p : Observers)
    (h : system.Reach (start cfg rounds initial) p) : Placed p.shared cfg.rt initial := by
  have hgood : (contract cfg.rt initial).Good (fun _ => Gives fun _ _ => True) (start cfg rounds initial) :=
    ⟨.inl rfl, fun i => sat_life cfg initial i (rounds i)⟩
  exact (hgood.reach h).inv

end V91Core.Observer
