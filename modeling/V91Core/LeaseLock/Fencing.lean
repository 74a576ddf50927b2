import V91Core.LeaseLock.Safety

namespace V91Core.LeaseLock

open V91Core.Effect V91Core.Python

-- The lease of this lock that the call releases, or supersedes by a new one.
def retireOf (lock : PyStr) (m : LeaseLockManager) (r : Request) : Option Lease :=
  match releaseOf lock m r, grantOf lock m r with
  | some lease, _ => some lease
  | none, some _ => m.leases lock
  | none, none => none

def retired (lock : PyStr) (events : List Request) : List Lease :=
  collect step (retireOf lock) LeaseLockManager.init events

-- The call releases no lease, or one whose token is below the last issued one.
def ReleasesOld (m : LeaseLockManager) (r : Request) : Prop :=
  ∀ lock lease, releaseOf lock m r = some lease → lease.fencingToken < m.lastToken lock

-- No lease carries a token that was not issued.
def Issued (m : LeaseLockManager) : Prop :=
  ∀ lock lease, m.leases lock = some lease → lease.fencingToken ≤ m.lastToken lock

theorem issued_step (m : LeaseLockManager) (r : Request) (h : Issued m) : Issued (step m r) := by
  intro lock lease hlease
  have hstep := lockStep m r lock
  rw [hlease] at hstep
  generalize hl : some lease = current, (step m r).lastToken lock = token,
    grantOf lock m r = grant at hstep ⊢
  cases hstep with
  | idle => exact h lock lease hl.symm
  | interrupted =>
      have := h lock lease hl.symm
      omega
  | granted granted _ htoken =>
      obtain rfl := Option.some.inj hl
      exact htoken.le
  | renewed old renewed hcurrent htoken =>
      obtain rfl := Option.some.inj hl
      rw [htoken]
      exact h lock old hcurrent
  | released => cases hl

theorem issued_after (events : List Request) : Issued (after events) :=
  runFrom_inv Issued issued_step _ events (fun _ _ h => nomatch h)

theorem releaseOf_spec (lock : PyStr) (m : LeaseLockManager) (r : Request) (lease : Lease)
    (hrelease : releaseOf lock m r = some lease) :
    m.leases lock = some lease ∧ (step m r).leases lock = none ∧
      (step m r).lastToken lock = m.lastToken lock ∧ grantOf lock m r = none := by
  have hstep := lockStep m r lock
  generalize (step m r).leases lock = current, (step m r).lastToken lock = token,
    grantOf lock m r = grant at hstep ⊢
  cases hstep with
  | released found hlease hfound =>
      obtain rfl := Option.some.inj (hrelease.symm.trans hfound)
      exact ⟨hlease, rfl, rfl, rfl⟩
  | idle hnone => exact absurd (hrelease.symm.trans hnone) nofun
  | interrupted hnone => exact absurd (hrelease.symm.trans hnone) nofun
  | granted _ _ _ hnone => exact absurd (hrelease.symm.trans hnone) nofun
  | renewed _ _ _ _ hnone => exact absurd (hrelease.symm.trans hnone) nofun

theorem retired_fenced (lock : PyStr) (m : LeaseLockManager) (r : Request) (lease : Lease)
    (hissued : Issued m) (hold : ReleasesOld m r) (hretire : retireOf lock m r = some lease) :
    lease.fencingToken < (step m r).lastToken lock := by
  unfold retireOf at hretire
  cases hrelease : releaseOf lock m r with
  | some released =>
      rw [hrelease] at hretire
      obtain rfl := Option.some.inj hretire
      rw [(releaseOf_spec lock m r released hrelease).2.2.1]
      exact hold lock released hrelease
  | none =>
      cases hgrant : grantOf lock m r with
      | none =>
          rw [hrelease, hgrant] at hretire
          cases hretire
      | some new =>
          rw [hrelease, hgrant] at hretire
          obtain ⟨hnew, hlast, -⟩ := lastToken_grant lock m r new hgrant
          have := hissued lock lease hretire
          omega

-- The token of every retired lease is refused.
def RetiredFenced (events : List Request) : Prop :=
  ∀ lock, ∀ lease ∈ retired lock events, (after events).isFenced lock lease.fencingToken = true

theorem retiredFenced_of_releasesOld (events : List Request)
    (hold : EachStep step ReleasesOld LeaseLockManager.init events) : RetiredFenced events := by
  intro lock lease hlease
  rw [LeaseLockManager.isFenced_eq_true]
  have hissued : EachStep step (fun m _ => Issued m) LeaseLockManager.init events :=
    EachStep.of_inv Issued _ (fun _ _ h => h) issued_step _ events (fun _ _ h => nomatch h)
  refine collect_bound (fun m r => Issued m ∧ ReleasesOld m r)
    (fun m lease => lease.fencingToken < m.lastToken lock) ?_ ?_ _ events (hissued.and hold) lease hlease
  · exact fun m r lease hQ hretire => retired_fenced lock m r lease hQ.1 hQ.2 hretire
  · intro m r lease _ hlt
    exact hlt.trans_le (lastToken_step lock m r)

theorem retiredFenced_iff_releasesOld (events : List Request) :
    (∀ before, before <+: events → RetiredFenced before) ↔
      EachStep step ReleasesOld LeaseLockManager.init events := by
  rw [eachStep_iff_split]
  constructor
  · intro h before r hbefore lock lease hrelease
    change releaseOf lock (after before) r = some lease at hrelease
    change lease.fencingToken < (after before).lastToken lock
    have hretired : lease ∈ retired lock (before ++ [r]) := by
      rw [retired, collect_concat]
      apply List.mem_append_right
      change lease ∈ (retireOf lock (after before) r).toList
      rw [retireOf, hrelease]
      exact List.mem_singleton_self lease
    have hfenced := h _ hbefore lock lease hretired
    have hafter : after (before ++ [r]) = step (after before) r := runFrom_concat _ _ _
    rw [LeaseLockManager.isFenced_eq_true, hafter, (releaseOf_spec lock _ r lease hrelease).2.2.1] at hfenced
    exact hfenced
  · intro h before hbefore
    apply retiredFenced_of_releasesOld
    rw [eachStep_iff_split]
    exact fun prior r hprior => h prior r (hprior.trans hbefore)

section Interrupted

-- What an `acquire` of this lock that counts a token is answered with: the lease, or the
-- OverflowError of `now + duration`.
def countedOf (lock : PyStr) (m : LeaseLockManager) (r : Request) : Option (Except PyExc Lease) :=
  match r, (call m r).1 with
  | .acquire (.str name) _ _ _, .ok (.acquired (some lease)) => if name = lock then some (.ok lease) else none
  | .acquire (.str name) _ _ _, .error .overflowError => if name = lock then some (.error .overflowError) else none
  | _, _ => none

def counted (lock : PyStr) (events : List Request) : List (Except PyExc Lease) :=
  collect step (countedOf lock) LeaseLockManager.init events

-- A release that returns gives up a lease whose takeover was interrupted: the last
-- `acquire` of its lock that counted a token was answered with an OverflowError.
def ReleasesInterrupted (before : List Request) (r : Request) : Prop :=
  ∀ lockId holderId token, r = .release lockId holderId token → (call (after before) r).1 = .ok .released →
    ∃ lock, lockId = .str lock ∧ (counted lock before).getLast? = some (.error .overflowError)

theorem requireId_error (name : String) (value : Json) (e : PyExc) (h : requireId name value = .error e) :
    e ≠ .overflowError := by
  cases value with
  | str s =>
      rw [requireId] at h
      split at h
      · rw [← Except.error.inj h]
        simp
      · cases h
  | _ =>
      rw [← Except.error.inj h]
      simp

theorem requireDuration_error (duration : Json) (e : PyExc) (h : requireDuration duration = .error e) :
    e ≠ .overflowError := by
  unfold requireDuration at h
  split at h
  · split at h
    · rw [← Except.error.inj h]
      simp
    · cases h
  · rw [← Except.error.inj h]
    simp

-- Arguments that are refused are no overflow.
theorem requireRequest_error (lockId holderId duration : Json) (e : PyExc)
    (h : requireRequest lockId holderId duration = .error e) : e ≠ .overflowError := by
  unfold requireRequest requireIds at h
  cases hlock : requireId "lock_id" lockId with
  | error e' =>
      rw [hlock] at h
      obtain rfl := Except.error.inj h
      exact requireId_error _ _ _ hlock
  | ok lock =>
      cases hholder : requireId "holder_id" holderId with
      | error e' =>
          rw [hlock, hholder] at h
          obtain rfl := Except.error.inj h
          exact requireId_error _ _ _ hholder
      | ok holder =>
          cases hduration : requireDuration duration with
          | error e' =>
              rw [hlock, hholder, hduration] at h
              obtain rfl := Except.error.inj h
              exact requireDuration_error _ _ hduration
          | ok seconds =>
              rw [hlock, hholder, hduration] at h
              cases h

theorem countedOf_acquire (lock : PyStr) (m : LeaseLockManager) (lockId holderId duration : Json) (now : PyNum) :
    (∀ lease, grantOf lock m (.acquire lockId holderId duration now) = some lease →
        countedOf lock m (.acquire lockId holderId duration now) = some (.ok lease)) ∧
      (Interrupts lock m (.acquire lockId holderId duration now) →
        countedOf lock m (.acquire lockId holderId duration now) = some (.error .overflowError)) ∧
      (grantOf lock m (.acquire lockId holderId duration now) = none →
        ¬ Interrupts lock m (.acquire lockId holderId duration now) →
          countedOf lock m (.acquire lockId holderId duration now) = none) := by
  have hanswer : (call m (.acquire lockId holderId duration now)).1 =
      (m.acquire lockId holderId duration now).1.map .acquired := rfl
  rcases acquire_cases m lockId holderId duration now with ⟨e, hargs, hcall⟩ |
    ⟨name, holder, seconds, hargs, ⟨hheld, hcall⟩ | ⟨hfree, ⟨e, hadd, hcall⟩ |
      ⟨lease, hname, -, ⟨sum, hsum⟩, hcall⟩⟩⟩
  · rw [hcall] at hanswer
    have hother := requireRequest_error lockId holderId duration e hargs
    refine ⟨?_, ?_, fun _ _ => ?_⟩
    · intro lease hgrant
      simp [grantOf, hanswer, Except.map] at hgrant
    · rintro ⟨_, _, _, h, -⟩
      exact absurd (hargs.symm.trans h) (by simp)
    · simp only [countedOf, hanswer, Except.map]
      split <;> simp_all
  · rw [hcall] at hanswer
    refine ⟨?_, ?_, fun _ _ => ?_⟩
    · intro lease hgrant
      simp [grantOf, hanswer, Except.map] at hgrant
    · rintro ⟨_, _, _, h, hfree, -⟩
      simp_all
    · simp only [countedOf, hanswer, Except.map]
  · rw [hcall] at hanswer
    have hoverflow := PyNum.add_error now seconds e hadd
    have hlockId : lockId = .str name := (requireRequest_eq_ok lockId holderId duration _ hargs).1
    subst hoverflow hlockId
    refine ⟨?_, ?_, fun _ hfine => ?_⟩
    · intro lease hgrant
      simp [grantOf, hanswer, Except.map] at hgrant
    · rintro ⟨_, _, _, h, -⟩
      have hsame : name = lock := congrArg Prod.fst (Except.ok.inj (hargs.symm.trans h))
      simp only [countedOf, hanswer, Except.map, if_pos hsame]
    · have hother : name ≠ lock := by
        rintro rfl
        exact hfine ⟨holder, seconds, .overflowError, hargs, hfree, hadd⟩
      simp [countedOf, hanswer, Except.map, hother]
  · rw [hcall] at hanswer
    have hlockId : lockId = .str name := (requireRequest_eq_ok lockId holderId duration _ hargs).1
    subst hlockId
    have hfine : ¬ Interrupts lock m (.acquire (.str name) holderId duration now) := by
      rintro ⟨_, _, _, h, -, hraise⟩
      simp_all
    have hgranted : grantOf lock m (.acquire (.str name) holderId duration now) =
        if name = lock then some lease else none := by
      simp [grantOf, hanswer, Except.map, hname, Option.filter_some]
    have hcounted : countedOf lock m (.acquire (.str name) holderId duration now) =
        if name = lock then some (.ok lease) else none := by
      simp [countedOf, hanswer, Except.map]
    rw [hgranted, hcounted]
    refine ⟨?_, fun hinterrupt => absurd hinterrupt hfine, ?_⟩
    · intro found hgrant
      split at hgrant
      · next hsame => rw [if_pos hsame, Option.some.inj hgrant]
      · cases hgrant
    · intro hnone _
      split at hnone
      · cases hnone
      · next hother => rw [if_neg hother]

theorem countedOf_spec (lock : PyStr) (m : LeaseLockManager) (r : Request) :
    (∀ lease, grantOf lock m r = some lease → countedOf lock m r = some (.ok lease)) ∧
      (Interrupts lock m r → countedOf lock m r = some (.error .overflowError)) ∧
      (grantOf lock m r = none → ¬ Interrupts lock m r → countedOf lock m r = none) := by
  cases r with
  | acquire lockId holderId duration now => exact countedOf_acquire lock m lockId holderId duration now
  | renew lockId holderId token duration now =>
      refine ⟨fun lease hgrant => ?_, fun h => h.elim, fun _ _ => rfl⟩
      simp only [grantOf, call] at hgrant
      cases hcall : (m.renew lockId holderId token duration now).1 <;> simp_all [Except.map]
  | release lockId holderId token =>
      refine ⟨fun lease hgrant => ?_, fun h => h.elim, fun _ _ => rfl⟩
      simp only [grantOf, call] at hgrant
      cases hcall : (m.release lockId holderId token).1 <;> simp_all [Except.map]
  | validateAction name holder token now =>
      refine ⟨fun lease hgrant => ?_, fun h => h.elim, fun _ _ => rfl⟩
      cases hgrant
  | isFenced name token =>
      refine ⟨fun lease hgrant => ?_, fun h => h.elim, fun _ _ => rfl⟩
      cases hgrant

-- A lease in force has the last token of its lock, unless its takeover was interrupted.
theorem stale_iff_interrupted (lock : PyStr) (events : List Request) (lease : Lease)
    (hlease : (after events).leases lock = some lease) :
    lease.fencingToken < (after events).lastToken lock ↔
      (counted lock events).getLast? = some (.error .overflowError) := by
  induction events using List.reverseRecOn generalizing lease with
  | nil => cases hlease
  | append_singleton events r ih =>
      have hafter : after (events ++ [r]) = step (after events) r := runFrom_concat _ _ _
      have hcounted : counted lock (events ++ [r]) = counted lock events ++
          (countedOf lock (after events) r).toList := collect_concat _ _ _
      obtain ⟨hgranted, hinterrupted, hneither⟩ := countedOf_spec lock (after events) r
      have hissued := issued_after events
      have hstep := lockStep (after events) r lock
      rw [hafter] at hlease ⊢
      rw [hlease] at hstep
      rw [hcounted]
      generalize hl : some lease = current, (step (after events) r).lastToken lock = token,
        hg : grantOf lock (after events) r = grant at hstep ⊢
      cases hstep with
      | idle _ hfine =>
          rw [hneither hg hfine, Option.toList_none, List.append_nil]
          exact ih lease hl.symm
      | interrupted _ hinterrupt =>
          have hold := hissued lock lease hl.symm
          rw [hinterrupted hinterrupt, Option.toList_some, List.getLast?_concat]
          exact iff_of_true (by omega) rfl
      | granted granted _ htoken =>
          obtain rfl := Option.some.inj hl
          rw [hgranted lease hg, Option.toList_some, List.getLast?_concat]
          exact iff_of_false (by omega) (by simp)
      | renewed old renewed hcurrent htoken _ hfine =>
          obtain rfl := Option.some.inj hl
          rw [hneither hg hfine, Option.toList_none, List.append_nil, htoken]
          exact ih old hcurrent
      | released => cases hl

theorem releasesOld_iff_interrupted (before : List Request) (r : Request) :
    ReleasesOld (after before) r ↔ ReleasesInterrupted before r := by
  cases r with
  | release lockId holderId token =>
      rcases release_cases (after before) lockId holderId token with ⟨e, hcall, hnone⟩ |
        ⟨lock, holder, lease, hargs, hlease, hcall⟩
      · refine iff_of_true ?_ ?_
        · intro lock lease hrelease
          rw [hnone lock] at hrelease
          cases hrelease
        · intro lockId' holderId' token' hr hanswer
          simp [call, hcall, Except.map] at hanswer
      · have hlockId := (requireIds_eq_ok lockId holderId _ hargs).1
        have hheld := (((after before).matchingLease_eq_some _ _ _ _).mp hlease).1
        have hstale := stale_iff_interrupted lock before lease hheld
        have hreleased : ∀ other, releaseOf other (after before) (.release lockId holderId token) =
            if lock = other then some lease else none := by
          intro other
          simp only [releaseOf, hargs]
          split
          · next hsame => rw [← hsame, hlease]
          · rfl
        constructor
        · intro hold lockId' holderId' token' hr _
          obtain ⟨rfl, -, -⟩ := Request.release.inj hr
          have hlt := hold lock lease (by rw [hreleased, if_pos rfl])
          exact ⟨lock, hlockId, hstale.mp hlt⟩
        · intro hinterrupted other found hrelease
          rw [hreleased] at hrelease
          split at hrelease
          · next hsame =>
              obtain rfl := Option.some.inj hrelease
              obtain ⟨name, hname, hlast⟩ := hinterrupted lockId holderId token rfl (by
                simp [call, hcall, Except.map])
              obtain rfl := Json.str.inj (hlockId.symm.trans hname)
              rw [← hsame]
              exact hstale.mpr hlast
          · cases hrelease
  | _ =>
      refine iff_of_true ?_ ?_
      · intro lock lease hrelease
        cases hrelease
      · intro lockId holderId token hr
        cases hr

end Interrupted

-- Every retired token is refused in the runs that release only leases which are stale
-- already, that is, whose takeover an OverflowError has interrupted.
theorem released_tokens_fenced_iff (events : List Request) :
    ((∀ before, before <+: events → RetiredFenced before) ↔
        EachStep step ReleasesOld LeaseLockManager.init events) ∧
      ((∀ before, before <+: events → RetiredFenced before) ↔
        ∀ before r, before ++ [r] <+: events → ReleasesInterrupted before r) := by
  have hiff := retiredFenced_iff_releasesOld events
  refine ⟨hiff, ?_⟩
  rw [hiff, eachStep_iff_split]
  constructor
  · intro h before r hbefore
    exact (releasesOld_iff_interrupted before r).mp (h before r hbefore)
  · intro h before r hbefore
    exact (releasesOld_iff_interrupted before r).mpr (h before r hbefore)

def releasedLease : List Request :=
  [.acquire (.str (py "task-a")) (.str (py "node-1")) (.int 10) (.float 100.0),
    .release (.str (py "task-a")) (.str (py "node-1")) 1]

theorem released_not_fenced : ¬ RetiredFenced releasedLease := by
  intro h
  have hretired : ⟨py "task-a", py "node-1", 1, .float 110.0⟩ ∈ retired (py "task-a") releasedLease := by
    decide +kernel
  have hfenced := h _ _ hretired
  revert hfenced
  decide +kernel

end V91Core.LeaseLock
