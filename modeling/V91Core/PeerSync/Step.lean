import V91Core.PeerSync.Model

namespace V91Core.PeerSync

open V91Core.Python

-- A message that was accepted, what validation read from it, and the time it
-- was received at.
structure Accepted (T : Type) where
  message : Json.Dict
  heartbeat : Heartbeat T
  receivedAt : T

variable {T : Type} (rt : Runtime) (A : TimeArith T) (trust : Trust T)

-- The message of this peer that the call accepts.
def acceptOf (peer : PyStr) (m : PeerRegistry T) : Request T → Option (Accepted T)
  | .receive message now | .receiveAndTrack message now =>
      match (receive rt A trust m message now).1, validate A message now with
      | .ok result, .ok h => if result.state ≠ .invalid ∧ h.peerId = peer then some ⟨message, h, now⟩ else none
      | _, _ => none
  | .markUnseenStale _ => none

section Receive

variable (m : PeerRegistry T) (message : Json.Dict) (now : T)

-- The registry after an accepted message.
def recorded (h : Heartbeat T) (result : PeerResult) (receivedAt : T) : PeerRegistry T :=
  { lastSequence := m.lastSequence.insert h.peerId h.sequence
    states := m.states.insert h.peerId result
    acceptedAt := if result.state = .aliveVerified then m.acceptedAt.insert h.peerId receivedAt else m.acceptedAt }

-- All the checks that a message must pass to be accepted.
structure Passes (h : Heartbeat T) (spent receivedAt : T) : Prop where
  valid : validate A message now = .ok h
  authentic : authenticate rt trust message h = .ok none
  aged : age A now h.timestamp = .ok (spent, receivedAt)
  arrived : A.lt spent (A.neg trust.futureSkew) = false
  newer : (m.lastSequence.lookup h.peerId).getD 0 < h.sequence

-- The result of an accepted message.
def acceptedResult (h : Heartbeat T) (spent : T) : PeerResult :=
  if A.lt trust.maxAge spent then h.result .stale "heartbeat exceeded freshness window"
  else h.result .aliveVerified "signature and freshness verified"

theorem acceptedResult_spec (h : Heartbeat T) (spent : T) :
    (acceptedResult A trust h spent).state ≠ .invalid ∧
      (acceptedResult A trust h spent).peerId = some h.peerId ∧
      (acceptedResult A trust h spent).sequence = some h.sequence ∧
      ((acceptedResult A trust h spent).state = .aliveVerified ↔ A.lt trust.maxAge spent = false) := by
  unfold acceptedResult
  split_ifs with hlt
  · exact ⟨nofun, rfl, rfl, by simp [Heartbeat.result, hlt]⟩
  · exact ⟨nofun, rfl, rfl, by simpa [Heartbeat.result] using hlt⟩

theorem receive_cases :
    (∃ out, receive rt A trust m message now = (out, m) ∧ ∀ result, out = .ok result → result.state = .invalid) ∨
    ∃ h spent receivedAt, Passes rt A trust m message now h spent receivedAt ∧
      receive rt A trust m message now =
        (.ok (acceptedResult A trust h spent), recorded m h (acceptedResult A trust h spent) receivedAt) := by
  unfold receive
  cases hvalid : validate A message now with
  | error e =>
      refine .inl ⟨_, rfl, fun result hresult => ?_⟩
      split_ifs at hresult
      obtain rfl := Except.ok.inj hresult
      rfl
  | ok h =>
      simp only
      cases hauth : authenticate rt trust message h with
      | error e => exact .inl ⟨_, rfl, nofun⟩
      | ok refused =>
          cases refused with
          | some reason =>
              refine .inl ⟨_, rfl, fun result hresult => ?_⟩
              obtain rfl := Except.ok.inj hresult
              rfl
          | none =>
              simp only
              cases haged : age A now h.timestamp with
              | error e => exact .inl ⟨_, rfl, nofun⟩
              | ok p =>
                  obtain ⟨spent, receivedAt⟩ := p
                  simp only
                  by_cases hfuture : A.lt spent (A.neg trust.futureSkew) = true
                  · rw [if_pos hfuture]
                    refine .inl ⟨_, rfl, fun result hresult => ?_⟩
                    obtain rfl := Except.ok.inj hresult
                    rfl
                  · rw [if_neg hfuture]
                    by_cases hreplay : h.sequence ≤ (m.lastSequence.lookup h.peerId).getD 0
                    · rw [if_pos hreplay]
                      refine .inl ⟨_, rfl, fun result hresult => ?_⟩
                      obtain rfl := Except.ok.inj hresult
                      rfl
                    · rw [if_neg hreplay]
                      refine .inr ⟨h, spent, receivedAt,
                        ⟨hvalid, hauth, haged, by simpa using hfuture, by omega⟩, ?_⟩
                      unfold recorded acceptedResult
                      by_cases hstale : A.lt trust.maxAge spent = true
                      · simp [hstale, Heartbeat.result]
                      · simp [hstale, Heartbeat.result]

theorem age_toFloat (timestamp : T) (spent receivedAt : T) (h : age A now timestamp = .ok (spent, receivedAt)) :
    A.toFloat now = .ok receivedAt := by
  obtain ⟨received, hreceived, h⟩ := (bind_eq_ok _ _ _).mp h
  obtain ⟨sent, -, h⟩ := (bind_eq_ok _ _ _).mp h
  obtain ⟨difference, -, h⟩ := (bind_eq_ok _ _ _).mp h
  obtain ⟨rfl, rfl⟩ := Prod.mk.inj (Except.ok.inj h)
  exact hreceived

-- The second record of the acceptance time repeats the first one.
theorem receiveAndTrack_eq :
    receiveAndTrack rt A trust m message now = receive rt A trust m message now := by
  unfold receiveAndTrack
  rcases receive_cases rt A trust m message now with ⟨out, hcall, hinvalid⟩ |
    ⟨h, spent, receivedAt, hpasses, hcall⟩
  · rw [hcall]
    cases out with
    | error e => rfl
    | ok result => simp only [hinvalid result rfl]
  · obtain ⟨-, hpeer, -, -⟩ := acceptedResult_spec A trust h spent
    rw [hcall]
    simp only [hpeer, age_toFloat A now h.timestamp spent receivedAt hpasses.aged]
    cases hstate : (acceptedResult A trust h spent).state with
    | aliveVerified => simp only [recorded, hstate, if_true, AList.insert_insert]
    | _ => rfl

end Receive

section Mark

variable (acceptedAt : AList fun _ : PyStr => T) (now : T)

-- The peer is reported alive, but its last message was received too long ago.
def Expires (peer : PyStr) (result : PeerResult) : Prop :=
  result.state = .aliveVerified ∧ ∃ receivedAt unseen, acceptedAt.lookup peer = some receivedAt ∧
    A.sub now receivedAt = .ok unseen ∧ A.lt trust.maxAge unseen = true

def expired (peer : PyStr) (result : PeerResult) : PeerResult :=
  ⟨some peer, .stale, py "no fresh heartbeat within configured window", result.sequence⟩

-- What the loop body does with one item: it stops, it leaves the states as they
-- are, or it marks the peer.
theorem markItems_cons (peer : PyStr) (result : PeerResult) (items : List (Sigma fun _ : PyStr => PeerResult))
    (states : AList fun _ : PyStr => PeerResult) :
    (∃ e, markItems A trust acceptedAt now (⟨peer, result⟩ :: items) states = (.error e, states)) ∨
    (¬ Expires A trust acceptedAt now peer result ∧
      markItems A trust acceptedAt now (⟨peer, result⟩ :: items) states =
        markItems A trust acceptedAt now items states) ∨
    (Expires A trust acceptedAt now peer result ∧
      markItems A trust acceptedAt now (⟨peer, result⟩ :: items) states =
        markItems A trust acceptedAt now items (states.insert peer (expired peer result))) := by
  rw [markItems]
  cases hstate : result.state with
  | aliveVerified =>
      cases hlookup : acceptedAt.lookup peer with
      | none =>
          refine .inr (.inl ⟨?_, rfl⟩)
          rintro ⟨-, _, _, h, -⟩
          rw [hlookup] at h
          cases h
      | some receivedAt =>
          simp only
          cases hsub : A.sub now receivedAt with
          | error e => exact .inl ⟨e, rfl⟩
          | ok unseen =>
              simp only
              by_cases hlt : A.lt trust.maxAge unseen = true
              · rw [if_pos hlt]
                exact .inr (.inr ⟨⟨hstate, receivedAt, unseen, hlookup, hsub, hlt⟩, rfl⟩)
              · rw [if_neg hlt]
                refine .inr (.inl ⟨?_, rfl⟩)
                rintro ⟨-, received', unseen', h, h', hlt'⟩
                obtain rfl := Option.some.inj (hlookup.symm.trans h)
                obtain rfl := Except.ok.inj (hsub.symm.trans h')
                exact hlt hlt'
  | _ =>
      refine .inr (.inl ⟨?_, rfl⟩)
      rintro ⟨halive, -⟩
      rw [hstate] at halive
      cases halive

-- The loop only marks peers that expire, and reports an error or marks all of them.
theorem markItems_lookup (items : List (Sigma fun _ : PyStr => PeerResult)) (hkeys : items.NodupKeys)
    (states : AList fun _ : PyStr => PeerResult)
    (hitems : ∀ peer result, ⟨peer, result⟩ ∈ items → states.lookup peer = some result) (peer : PyStr) :
    ((markItems A trust acceptedAt now items states).2.lookup peer = states.lookup peer ∧
      ∀ result, (markItems A trust acceptedAt now items states).1 = .ok () → ⟨peer, result⟩ ∈ items →
        ¬ Expires A trust acceptedAt now peer result) ∨
    ∃ result, states.lookup peer = some result ∧ Expires A trust acceptedAt now peer result ∧
      (markItems A trust acceptedAt now items states).2.lookup peer = some (expired peer result) := by
  induction items generalizing states with
  | nil => exact .inl ⟨rfl, nofun⟩
  | cons item items ih =>
      obtain ⟨name, old⟩ := item
      obtain ⟨hname, hrest⟩ := List.nodupKeys_cons.mp hkeys
      have hold := hitems name old (by simp)
      rcases markItems_cons A trust acceptedAt now name old items states with ⟨e, hcall⟩ |
        ⟨hfine, hcall⟩ | ⟨hexpires, hcall⟩
      · rw [hcall]
        exact .inl ⟨rfl, nofun⟩
      · rw [hcall]
        rcases ih hrest states (fun p r h => hitems p r (List.mem_cons_of_mem _ h)) with ⟨hsame, hnone⟩ | hmarked
        · refine .inl ⟨hsame, fun result hok hmem => ?_⟩
          rcases List.mem_cons.mp hmem with heq | hmem
          · cases heq
            exact hfine
          · exact hnone result hok hmem
        · exact .inr hmarked
      · rw [hcall]
        have hother : ∀ p r, ⟨p, r⟩ ∈ items → (states.insert name (expired name old)).lookup p = some r := by
          intro p r h
          have hne : p ≠ name := by
            rintro rfl
            exact hname (List.mem_keys.mpr ⟨r, h⟩)
          rw [AList.lookup_insert_ne hne]
          exact hitems p r (List.mem_cons_of_mem _ h)
        by_cases hpeer : peer = name
        · subst hpeer
          have hgone : ∀ r, ⟨peer, r⟩ ∉ items := fun r h => hname (List.mem_keys.mpr ⟨r, h⟩)
          rcases ih hrest _ hother with ⟨hsame, -⟩ | ⟨result, hlookup, hexpires', -⟩
          · refine .inr ⟨old, hold, hexpires, ?_⟩
            rw [hsame, AList.lookup_insert]
          · rw [AList.lookup_insert] at hlookup
            obtain rfl := Option.some.inj hlookup
            cases hexpires'.1
        · rcases ih hrest _ hother with ⟨hsame, hnone⟩ | ⟨result, hlookup, hmarked⟩
          · rw [AList.lookup_insert_ne hpeer] at hsame
            refine .inl ⟨hsame, fun result hok hmem => ?_⟩
            rcases List.mem_cons.mp hmem with heq | hmem
            · cases heq
              exact absurd rfl hpeer
            · exact hnone result hok hmem
          · rw [AList.lookup_insert_ne hpeer] at hlookup
            exact .inr ⟨result, hlookup, hmarked⟩

end Mark

section Peers

-- What a registry knows of one peer.
structure View (T : Type) where
  sequence : Option Int
  result : Option PeerResult
  acceptedAt : Option T

def view (peer : PyStr) (m : PeerRegistry T) : View T :=
  ⟨m.lastSequence.lookup peer, m.states.lookup peer, m.acceptedAt.lookup peer⟩

-- What one call does to one peer: what is known of it afterwards, and the
-- message of it that the call accepts.
inductive PeerStep (m : PeerRegistry T) (r : Request T) (peer : PyStr) : View T → Option (Accepted T) → Prop
  | idle (hmark : ∀ now s, r = .markUnseenStale now → (markUnseenStale A trust m now).1 = .ok s →
      ∀ result, m.states.lookup peer = some result → ¬ Expires A trust m.acceptedAt now peer result) :
      PeerStep m r peer (view peer m) none
  | accepted (a : Accepted T) (spent receivedAt : T)
      (hcall : r = .receive a.message a.receivedAt ∨ r = .receiveAndTrack a.message a.receivedAt)
      (hpasses : Passes rt A trust m a.message a.receivedAt a.heartbeat spent receivedAt)
      (hpeer : a.heartbeat.peerId = peer) :
      PeerStep m r peer
        ⟨some a.heartbeat.sequence, some (acceptedResult A trust a.heartbeat spent),
          if (acceptedResult A trust a.heartbeat spent).state = .aliveVerified then some receivedAt
          else m.acceptedAt.lookup peer⟩ (some a)
  | marked (now : T) (result : PeerResult) (hcall : r = .markUnseenStale now)
      (hresult : m.states.lookup peer = some result)
      (hexpires : Expires A trust m.acceptedAt now peer result) :
      PeerStep m r peer ⟨m.lastSequence.lookup peer, some (expired peer result), m.acceptedAt.lookup peer⟩ none

theorem acceptOf_receive (m : PeerRegistry T) (message : Json.Dict) (now : T) (r : Request T) (peer : PyStr)
    (hr : r = .receive message now ∨ r = .receiveAndTrack message now) :
    acceptOf rt A trust peer m r = acceptOf rt A trust peer m (.receive message now) := by
  rcases hr with rfl | rfl <;> rfl

theorem step_receive (m : PeerRegistry T) (message : Json.Dict) (now : T) (r : Request T)
    (hr : r = .receive message now ∨ r = .receiveAndTrack message now) :
    step rt A trust m r = (receive rt A trust m message now).2 := by
  rcases hr with rfl | rfl
  · rfl
  · rw [step, call, receiveAndTrack_eq]
    rfl

theorem peerStep_receive (m : PeerRegistry T) (message : Json.Dict) (now : T) (r : Request T) (peer : PyStr)
    (hr : r = .receive message now ∨ r = .receiveAndTrack message now) :
    PeerStep rt A trust m r peer (view peer (step rt A trust m r)) (acceptOf rt A trust peer m r) := by
  rw [acceptOf_receive rt A trust m message now r peer hr, step_receive rt A trust m message now r hr]
  have hidle : ∀ now' s, r = .markUnseenStale now' → (markUnseenStale A trust m now').1 = .ok s →
      ∀ result, m.states.lookup peer = some result → ¬ Expires A trust m.acceptedAt now' peer result := by
    rintro now' s rfl
    rcases hr with h | h <;> cases h
  simp only [acceptOf]
  rcases receive_cases rt A trust m message now with ⟨out, hcall, hinvalid⟩ |
    ⟨h, spent, receivedAt, hpasses, hcall⟩
  · rw [hcall]
    cases out with
    | error e => exact .idle hidle
    | ok result =>
        have hstate := hinvalid result rfl
        cases validate A message now with
        | error e => exact .idle hidle
        | ok h =>
            simp only [hstate, ne_eq, not_true_eq_false, false_and, if_false]
            exact .idle hidle
  · obtain ⟨hvalid, -, -, -⟩ := acceptedResult_spec A trust h spent
    rw [hcall, hpasses.valid]
    by_cases hpeer : h.peerId = peer
    · subst hpeer
      simp only [hvalid, ne_eq, not_false_eq_true, and_self, if_true]
      have hview : view h.peerId (recorded m h (acceptedResult A trust h spent) receivedAt) =
          ⟨some h.sequence, some (acceptedResult A trust h spent),
            if (acceptedResult A trust h spent).state = .aliveVerified then some receivedAt
            else m.acceptedAt.lookup h.peerId⟩ := by
        simp only [view, recorded, AList.lookup_insert]
        split_ifs
        · rw [AList.lookup_insert]
        · rfl
      rw [hview]
      exact .accepted ⟨message, h, now⟩ spent receivedAt hr hpasses rfl
    · have hview : view peer (recorded m h (acceptedResult A trust h spent) receivedAt) = view peer m := by
        have hne := Ne.symm hpeer
        simp only [view, recorded, AList.lookup_insert_ne hne]
        split_ifs
        · rw [AList.lookup_insert_ne hne]
        · rfl
      simp only [hpeer, and_false, if_false]
      rw [hview]
      exact .idle hidle

theorem peerStep (m : PeerRegistry T) (r : Request T) (peer : PyStr) :
    PeerStep rt A trust m r peer (view peer (step rt A trust m r)) (acceptOf rt A trust peer m r) := by
  cases r with
  | receive message now => exact peerStep_receive rt A trust m message now _ peer (.inl rfl)
  | receiveAndTrack message now => exact peerStep_receive rt A trust m message now _ peer (.inr rfl)
  | markUnseenStale now =>
      have hmem : ∀ name result, ⟨name, result⟩ ∈ m.states.entries → m.states.lookup name = some result :=
        fun name result h => List.mem_dlookup_iff m.states.nodupKeys |>.mpr h
      have hitems := markItems_lookup A trust m.acceptedAt now m.states.entries m.states.nodupKeys
        m.states hmem peer
      have hstep : view peer (step rt A trust m (.markUnseenStale now)) =
          ⟨m.lastSequence.lookup peer,
            (markItems A trust m.acceptedAt now m.states.entries m.states).2.lookup peer,
            m.acceptedAt.lookup peer⟩ := by
        simp only [step, call, markUnseenStale]
        rcases markItems A trust m.acceptedAt now m.states.entries m.states with ⟨e | _, states⟩ <;> rfl
      rw [hstep]
      rcases hitems with ⟨hsame, hnone⟩ | ⟨result, hlookup, hexpires, hmarked⟩
      · rw [hsame]
        refine .idle fun now' s heq hok result hresult => ?_
        obtain rfl := Request.markUnseenStale.inj heq
        refine hnone result ?_ (List.mem_dlookup_iff m.states.nodupKeys |>.mp hresult)
        unfold markUnseenStale at hok
        rcases hout : markItems A trust m.acceptedAt now m.states.entries m.states with ⟨e | _, states⟩
        · rw [hout] at hok
          cases hok
        · rfl
      · rw [hmarked]
        exact .marked now result rfl hlookup hexpires

end Peers

end V91Core.PeerSync
