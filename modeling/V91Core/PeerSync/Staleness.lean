import V91Core.PeerSync.Replay

namespace V91Core.PeerSync

open V91Core.Effect V91Core.Python

section LastAccepted

variable {T : Type} (rt : Runtime) (A : TimeArith T) (trust : Trust T)

-- `a` is the last message of the peer that the run accepts, and `later` are the
-- calls after it.
def LastAccepted (peer : PyStr) (events : List (Request T)) (a : Accepted T) (later : List (Request T)) : Prop :=
  ∃ before r, events = before ++ r :: later ∧ acceptOf rt A trust peer (after rt A trust before) r = some a ∧
    collect (step rt A trust) (acceptOf rt A trust peer) (after rt A trust (before ++ [r])) later = []

theorem exists_lastAccepted (peer : PyStr) (events : List (Request T)) (result : PeerResult)
    (hresult : (after rt A trust events).states.lookup peer = some result) :
    ∃ a later, LastAccepted rt A trust peer events a later := by
  have hnonempty : accepted rt A trust peer events ≠ [] := by
    intro hnil
    have hview := (view_last rt A trust peer events).2
    rw [hnil, hresult] at hview
    cases hview
  obtain ⟨before, r, later, a, hevents, haccept, hlater⟩ := exists_last_of_collect _ events hnonempty
  exact ⟨a, later, before, r, hevents, haccept, hlater⟩

end LastAccepted

section Exact

variable (rt : Runtime) (read : Json → Option ℚ) (trust : Trust ℚ)

-- The times of the markings among these calls.
def markings (events : List (Request ℚ)) : List ℚ :=
  events.filterMap fun r =>
    match r with
    | .markUnseenStale now => some now
    | _ => none

def Fresh (a : Accepted ℚ) : Prop := a.receivedAt - a.heartbeat.timestamp ≤ trust.maxAge

-- What the registry knows of a peer after its last accepted message and the
-- markings since then.
structure Tracked (m : PeerRegistry ℚ) (peer : PyStr) (a : Accepted ℚ) (marks : List ℚ) : Prop where
  alive : ∃ result, m.states.lookup peer = some result ∧ (result.state = .aliveVerified ↔
    Fresh trust a ∧ ∀ t ∈ marks, t - a.receivedAt ≤ trust.maxAge)
  time : Fresh trust a → m.acceptedAt.lookup peer = some a.receivedAt

theorem exact_age (now timestamp spent receivedAt : ℚ)
    (h : age (TimeArith.exact read) now timestamp = .ok (spent, receivedAt)) :
    spent = now - timestamp ∧ receivedAt = now := by
  obtain ⟨rfl, rfl⟩ := Prod.mk.inj (Except.ok.inj h)
  exact ⟨rfl, rfl⟩

theorem markItems_exact_ok (acceptedAt : AList fun _ : PyStr => ℚ) (now : ℚ)
    (items : List (Sigma fun _ : PyStr => PeerResult)) (states : AList fun _ : PyStr => PeerResult) :
    (markItems (TimeArith.exact read) trust acceptedAt now items states).1 = .ok () := by
  induction items generalizing states with
  | nil => rfl
  | cons item items ih =>
      rw [markItems]
      split
      · change (if (TimeArith.exact read).lt trust.maxAge (now - _) = true then
            markItems (TimeArith.exact read) trust acceptedAt now items _
          else markItems (TimeArith.exact read) trust acceptedAt now items _).1 = _
        split_ifs
        · exact ih _
        · exact ih _
      · exact ih _

theorem markUnseenStale_exact_ok (m : PeerRegistry ℚ) (now : ℚ) :
    ∃ s, (markUnseenStale (TimeArith.exact read) trust m now).1 = .ok s := by
  have hok := markItems_exact_ok read trust m.acceptedAt now m.states.entries m.states
  unfold markUnseenStale
  rcases hout : markItems (TimeArith.exact read) trust m.acceptedAt now m.states.entries m.states with ⟨e | _, states⟩
  · rw [hout] at hok
    cases hok
  · exact ⟨states, rfl⟩

theorem expires_exact_iff (m : PeerRegistry ℚ) (peer : PyStr) (now receivedAt : ℚ) (result : PeerResult)
    (htime : m.acceptedAt.lookup peer = some receivedAt) :
    Expires (TimeArith.exact read) trust m.acceptedAt now peer result ↔
      result.state = .aliveVerified ∧ trust.maxAge < now - receivedAt := by
  constructor
  · rintro ⟨halive, _, unseen, h, hsub, hlt⟩
    obtain rfl := Option.some.inj (htime.symm.trans h)
    obtain rfl := Except.ok.inj hsub
    exact ⟨halive, by simpa [TimeArith.exact] using hlt⟩
  · rintro ⟨halive, hlt⟩
    exact ⟨halive, receivedAt, now - receivedAt, htime, rfl, by simpa [TimeArith.exact] using hlt⟩

theorem tracked_accept (peer : PyStr) (m : PeerRegistry ℚ) (r : Request ℚ) (a : Accepted ℚ)
    (haccept : acceptOf rt (TimeArith.exact read) trust peer m r = some a) :
    Tracked trust (step rt (TimeArith.exact read) trust m r) peer a [] := by
  have hstep := peerStep rt (TimeArith.exact read) trust m r peer
  rw [haccept] at hstep
  have hresult : (view peer (step rt (TimeArith.exact read) trust m r)).result =
      (step rt (TimeArith.exact read) trust m r).states.lookup peer := rfl
  have htime : (view peer (step rt (TimeArith.exact read) trust m r)).acceptedAt =
      (step rt (TimeArith.exact read) trust m r).acceptedAt.lookup peer := rfl
  generalize view peer (step rt (TimeArith.exact read) trust m r) = v at hstep hresult htime
  cases hstep with
  | accepted _ spent receivedAt _ hpasses hpeer =>
      obtain ⟨rfl, rfl⟩ := exact_age read _ _ _ _ hpasses.aged
      have hfresh : (acceptedResult (TimeArith.exact read) trust a.heartbeat
          (a.receivedAt - a.heartbeat.timestamp)).state = .aliveVerified ↔ Fresh trust a := by
        rw [(acceptedResult_spec (TimeArith.exact read) trust a.heartbeat _).2.2.2]
        simp [TimeArith.exact, Fresh]
      constructor
      · refine ⟨_, hresult.symm, ?_⟩
        rw [hfresh]
        simp
      · intro h
        rw [← htime, if_pos (hfresh.mpr h)]

theorem tracked_step (peer : PyStr) (m : PeerRegistry ℚ) (r : Request ℚ) (a : Accepted ℚ) (marks : List ℚ)
    (h : Tracked trust m peer a marks) (hnone : acceptOf rt (TimeArith.exact read) trust peer m r = none) :
    Tracked trust (step rt (TimeArith.exact read) trust m r) peer a (marks ++ markings [r]) := by
  obtain ⟨⟨result, hlookup, halive⟩, htime⟩ := h
  have hstep := peerStep rt (TimeArith.exact read) trust m r peer
  rw [hnone] at hstep
  have hresult' : (view peer (step rt (TimeArith.exact read) trust m r)).result =
      (step rt (TimeArith.exact read) trust m r).states.lookup peer := rfl
  have htime' : (view peer (step rt (TimeArith.exact read) trust m r)).acceptedAt =
      (step rt (TimeArith.exact read) trust m r).acceptedAt.lookup peer := rfl
  generalize view peer (step rt (TimeArith.exact read) trust m r) = v at hstep hresult' htime'
  cases hstep with
  | idle hmark =>
      refine ⟨⟨result, hresult'.symm.trans hlookup, ?_⟩, fun hfresh => htime'.symm.trans (htime hfresh)⟩
      cases r with
      | markUnseenStale now =>
          obtain ⟨s, hs⟩ := markUnseenStale_exact_ok read trust m now
          have hkeeps := hmark now s rfl hs result hlookup
          rw [halive]
          constructor
          · rintro ⟨hfresh, hmarks⟩
            refine ⟨hfresh, fun t ht => ?_⟩
            rcases List.mem_append.mp ht with ht | ht
            · exact hmarks t ht
            · obtain rfl := List.mem_singleton.mp ht
              rw [expires_exact_iff read trust m peer t a.receivedAt result (htime hfresh)] at hkeeps
              by_contra hlt
              exact hkeeps ⟨halive.mpr ⟨hfresh, hmarks⟩, not_le.mp hlt⟩
          · exact fun h => ⟨h.1, fun t ht => h.2 t (List.mem_append_left _ ht)⟩
      | receive message now => simpa [markings] using halive
      | receiveAndTrack message now => simpa [markings] using halive
  | marked now found hcall hfound hexpires =>
      subst hcall
      obtain rfl := Option.some.inj (hlookup.symm.trans hfound)
      obtain ⟨hfresh, hmarks⟩ := halive.mp hexpires.1
      rw [expires_exact_iff read trust m peer now a.receivedAt result (htime hfresh)] at hexpires
      refine ⟨⟨_, hresult'.symm, iff_of_false nofun ?_⟩, fun hfresh => htime'.symm.trans (htime hfresh)⟩
      rintro ⟨-, hall⟩
      have := hall now (List.mem_append_right _ (List.mem_singleton_self now))
      linarith [hexpires.2]

theorem tracked_run (peer : PyStr) (later : List (Request ℚ)) (m : PeerRegistry ℚ) (a : Accepted ℚ)
    (marks : List ℚ) (h : Tracked trust m peer a marks)
    (hnone : collect (step rt (TimeArith.exact read) trust) (acceptOf rt (TimeArith.exact read) trust peer)
      m later = []) :
    Tracked trust (runFrom (step rt (TimeArith.exact read) trust) m later) peer a (marks ++ markings later) := by
  induction later generalizing m marks with
  | nil => simpa [markings, runFrom] using h
  | cons r later ih =>
      obtain ⟨hnow, hrest⟩ := List.append_eq_nil_iff.mp hnone
      have hnow : acceptOf rt (TimeArith.exact read) trust peer m r = none := by
        cases hr : acceptOf rt (TimeArith.exact read) trust peer m r with
        | none => rfl
        | some a => 
            rw [hr] at hnow
            cases hnow
      have hnext := ih _ _ (tracked_step rt read trust peer m r a marks h hnow) hrest
      have hsplit : markings (r :: later) = markings [r] ++ markings later :=
        List.filterMap_append (l := [r])
      rw [hsplit, ← List.append_assoc]
      exact hnext

theorem tracked_of_lastAccepted (peer : PyStr) (events : List (Request ℚ)) (a : Accepted ℚ)
    (later : List (Request ℚ)) (h : LastAccepted rt (TimeArith.exact read) trust peer events a later) :
    Tracked trust (after rt (TimeArith.exact read) trust events) peer a (markings later) := by
  obtain ⟨before, r, rfl, haccept, hlater⟩ := h
  have hsplit : before ++ r :: later = (before ++ [r]) ++ later := by simp
  have hafter : after rt (TimeArith.exact read) trust (before ++ r :: later) =
      runFrom (step rt (TimeArith.exact read) trust) (after rt (TimeArith.exact read) trust (before ++ [r])) later := by
    rw [hsplit]
    exact List.foldl_append
  have hfirst : after rt (TimeArith.exact read) trust (before ++ [r]) =
      step rt (TimeArith.exact read) trust (after rt (TimeArith.exact read) trust before) r := runFrom_concat _ _ _
  have htracked := tracked_accept rt read trust peer _ r a haccept
  rw [← hfirst] at htracked
  rw [hafter]
  exact tracked_run rt read trust peer later _ a [] htracked hlater

theorem mark_lookup (m : PeerRegistry ℚ) (now : ℚ) (peer : PyStr) :
    (step rt (TimeArith.exact read) trust m (.markUnseenStale now)).states.lookup peer = m.states.lookup peer ∨
      ∃ result, m.states.lookup peer = some result ∧ result.state = .aliveVerified ∧
        (step rt (TimeArith.exact read) trust m (.markUnseenStale now)).states.lookup peer =
          some (expired peer result) := by
  have hstep := peerStep rt (TimeArith.exact read) trust m (.markUnseenStale now) peer
  have hresult : (view peer (step rt (TimeArith.exact read) trust m (.markUnseenStale now))).result =
      (step rt (TimeArith.exact read) trust m (.markUnseenStale now)).states.lookup peer := rfl
  rw [← hresult]
  generalize view peer (step rt (TimeArith.exact read) trust m (.markUnseenStale now)) = v,
    acceptOf rt (TimeArith.exact read) trust peer m (.markUnseenStale now) = taken at hstep
  cases hstep with
  | idle => exact .inl rfl
  | accepted _ _ _ hcall => rcases hcall with h | h <;> cases h
  | marked _ result _ hfound hexpires => exact .inr ⟨result, hfound, hexpires.1, rfl⟩

theorem mem_markings (t : ℚ) (events : List (Request ℚ)) (h : t ∈ markings events) :
    .markUnseenStale t ∈ events := by
  obtain ⟨r, hr, hrt⟩ := List.mem_filterMap.mp h
  cases r with
  | markUnseenStale t' =>
      obtain rfl := Option.some.inj hrt
      exact hr
  | _ => cases hrt

-- After marking, a peer that is still reported alive sent its last accepted
-- heartbeat at most twice the window ago; one that was received within the window
-- stays alive unless an earlier marking made it stale; and no stale peer is
-- reported alive again.
theorem alive_bounded_staleness (events : List (Request ℚ)) (now : ℚ) (peer : PyStr) :
    (∀ result, (after rt (TimeArith.exact read) trust (events ++ [.markUnseenStale now])).states.lookup peer =
        some result → result.state = .aliveVerified →
      ∃ a later, LastAccepted rt (TimeArith.exact read) trust peer events a later ∧
        now - 2 * trust.maxAge ≤ a.heartbeat.timestamp) ∧
    (∀ a later, LastAccepted rt (TimeArith.exact read) trust peer events a later →
      now - a.receivedAt ≤ trust.maxAge → Fresh trust a →
      (∃ result, (after rt (TimeArith.exact read) trust (events ++ [.markUnseenStale now])).states.lookup peer =
        some result ∧ result.state = .aliveVerified) ∨
      ∃ t, .markUnseenStale t ∈ later ∧ trust.maxAge < t - a.receivedAt) ∧
    ∀ result, (after rt (TimeArith.exact read) trust events).states.lookup peer = some result →
      result.state = .stale →
      (after rt (TimeArith.exact read) trust (events ++ [.markUnseenStale now])).states.lookup peer = some result := by
  have hafter : after rt (TimeArith.exact read) trust (events ++ [.markUnseenStale now]) =
      step rt (TimeArith.exact read) trust (after rt (TimeArith.exact read) trust events) (.markUnseenStale now) :=
    runFrom_concat _ _ _
  have hmarked : ∀ a later, LastAccepted rt (TimeArith.exact read) trust peer events a later →
      Tracked trust (after rt (TimeArith.exact read) trust (events ++ [.markUnseenStale now])) peer a
        (markings later ++ [now]) := by
    intro a later hlast
    rw [hafter]
    exact tracked_step rt read trust peer _ (.markUnseenStale now) a _
      (tracked_of_lastAccepted rt read trust peer events a later hlast) rfl
  have hlookup := mark_lookup rt read trust (after rt (TimeArith.exact read) trust events) now peer
  rw [← hafter] at hlookup
  refine ⟨?_, ?_, ?_⟩
  · intro result hresult halive
    have hbefore : (after rt (TimeArith.exact read) trust events).states.lookup peer = some result := by
      rcases hlookup with hsame | ⟨_, -, -, hexpired⟩
      · rw [← hsame, hresult]
      · obtain rfl := Option.some.inj (hresult.symm.trans hexpired)
        cases halive
    obtain ⟨a, later, hlast⟩ := exists_lastAccepted rt _ trust peer events result hbefore
    obtain ⟨result', hresult', hiff⟩ := (hmarked a later hlast).alive
    obtain rfl := Option.some.inj (hresult.symm.trans hresult')
    obtain ⟨hfresh, hmarks⟩ := hiff.mp halive
    have hnow := hmarks now (List.mem_append_right _ (List.mem_singleton_self now))
    refine ⟨a, later, hlast, ?_⟩
    unfold Fresh at hfresh
    linarith
  · intro a later hlast hnow hfresh
    by_cases hmarks : ∀ t ∈ markings later, t - a.receivedAt ≤ trust.maxAge
    · obtain ⟨result, hresult, hiff⟩ := (hmarked a later hlast).alive
      refine .inl ⟨result, hresult, hiff.mpr ⟨hfresh, fun t ht => ?_⟩⟩
      rcases List.mem_append.mp ht with ht | ht
      · exact hmarks t ht
      · obtain rfl := List.mem_singleton.mp ht
        exact hnow
    · push Not at hmarks
      obtain ⟨t, ht, hlt⟩ := hmarks
      exact .inr ⟨t, mem_markings t later ht, hlt⟩
  · intro result hresult hstale
    rcases hlookup with hsame | ⟨result', hresult', halive, -⟩
    · rw [hsame, hresult]
    · obtain rfl := Option.some.inj (hresult.symm.trans hresult')
      rw [hstale] at halive
      cases halive

end Exact

end V91Core.PeerSync
