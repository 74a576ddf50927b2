import V91Core.Effect.Run
import V91Core.PeerSync.Step

namespace V91Core.PeerSync

open V91Core.Effect V91Core.Python

section Inversion

theorem check_eq_ok (ok : Bool) (msg : String) : check ok msg = .ok () ↔ ok = true := by
  cases ok <;> simp [check]

theorem nonEmptyStr_eq_ok (value : Json) (msg : String) (s : PyStr) (h : nonEmptyStr value msg = .ok s) :
    value = .str s := by
  unfold nonEmptyStr at h
  split at h
  · obtain rfl := Except.ok.inj h
    rfl
  · cases h

theorem positiveInt_eq_ok (value : Json) (msg : String) (n : Int) (h : positiveInt value msg = .ok n) :
    value = .int n ∧ 1 ≤ n := by
  unfold positiveInt at h
  split at h
  · rename_i k
    split_ifs at h with hlt
    obtain rfl := Except.ok.inj h
    exact ⟨rfl, by omega⟩
  · cases h

theorem signature64_eq_ok (value : Json) (msg : String) (s : PyStr) (h : signature64 value msg = .ok s) :
    value = .str s ∧ s.length = 64 := by
  unfold signature64 at h
  split at h
  · split_ifs at h with hlength
    obtain rfl := Except.ok.inj h
    exact ⟨rfl, hlength⟩
  · cases h

theorem subscript_dict_eq_ok (message : Json.Dict) (key : PyStr) (value : Json)
    (h : subscript message.json key = .ok value) : Json.lookup key message.fields = some value := by
  obtain ⟨fields, hfields, hlookup⟩ := (subscript_eq_ok _ _ _).mp h
  obtain rfl := Json.obj.inj hfields
  exact hlookup

variable {T : Type} (A : TimeArith T)

theorem readHeader_eq_ok (message : Json.Dict) (peerId keyId : PyStr) (sequence : Int) (timestamp : T)
    (h : readHeader A message = .ok (peerId, keyId, sequence, timestamp)) :
    Json.lookup (py "peer_id") message.fields = some (.str peerId) ∧
      Json.lookup (py "key_id") message.fields = some (.str keyId) ∧
      Json.lookup (py "sequence") message.fields = some (.int sequence) ∧ 1 ≤ sequence := by
  obtain ⟨_, -, h⟩ := (bind_eq_ok _ _ _).mp h
  obtain ⟨peerValue, hpeer, h⟩ := (bind_eq_ok _ _ _).mp h
  obtain ⟨keyValue, hkey, h⟩ := (bind_eq_ok _ _ _).mp h
  obtain ⟨sequenceValue, hsequence, h⟩ := (bind_eq_ok _ _ _).mp h
  obtain ⟨_, -, h⟩ := (bind_eq_ok _ _ _).mp h
  obtain ⟨_, -, h⟩ := (bind_eq_ok _ _ _).mp h
  obtain ⟨_, -, h⟩ := (bind_eq_ok _ _ _).mp h
  obtain ⟨peer, hpeer', h⟩ := (bind_eq_ok _ _ _).mp h
  obtain ⟨key, hkey', h⟩ := (bind_eq_ok _ _ _).mp h
  obtain ⟨number, hnumber, h⟩ := (bind_eq_ok _ _ _).mp h
  obtain ⟨_, -, h⟩ := (bind_eq_ok _ _ _).mp h
  obtain ⟨rfl, rfl, rfl, rfl⟩ := by simpa using h
  obtain rfl := nonEmptyStr_eq_ok _ _ _ hpeer'
  obtain rfl := nonEmptyStr_eq_ok _ _ _ hkey'
  obtain ⟨rfl, hpositive⟩ := positiveInt_eq_ok _ _ _ hnumber
  exact ⟨subscript_dict_eq_ok _ _ _ hpeer, subscript_dict_eq_ok _ _ _ hkey,
    subscript_dict_eq_ok _ _ _ hsequence, hpositive⟩

theorem readBody_eq_ok (message : Json.Dict) (signature : PyStr) (h : readBody message = .ok signature) :
    Json.lookup (py "signature") message.fields = some (.str signature) ∧ signature.length = 64 := by
  obtain ⟨_, -, h⟩ := (bind_eq_ok _ _ _).mp h
  obtain ⟨_, -, h⟩ := (bind_eq_ok _ _ _).mp h
  obtain ⟨_, -, h⟩ := (bind_eq_ok _ _ _).mp h
  obtain ⟨_, -, h⟩ := (bind_eq_ok _ _ _).mp h
  obtain ⟨_, -, h⟩ := (bind_eq_ok _ _ _).mp h
  obtain ⟨_, -, h⟩ := (bind_eq_ok _ _ _).mp h
  obtain ⟨_, -, h⟩ := (bind_eq_ok _ _ _).mp h
  obtain ⟨_, -, h⟩ := (bind_eq_ok _ _ _).mp h
  obtain ⟨value, hvalue, h⟩ := (bind_eq_ok _ _ _).mp h
  obtain ⟨rfl, hlength⟩ := signature64_eq_ok _ _ _ h
  exact ⟨subscript_dict_eq_ok _ _ _ hvalue, hlength⟩

theorem validate_eq_ok (message : Json.Dict) (now : T) (h : Heartbeat T) (hvalid : validate A message now = .ok h) :
    readHeader A message = .ok (h.peerId, h.keyId, h.sequence, h.timestamp) ∧
      readBody message = .ok h.signature := by
  obtain ⟨⟨peerId, keyId, sequence, timestamp⟩, hheader, hvalid⟩ := (bind_eq_ok _ _ _).mp hvalid
  obtain ⟨_, -, hvalid⟩ := (bind_eq_ok _ _ _).mp hvalid
  obtain ⟨signature, hbody, hvalid⟩ := (bind_eq_ok _ _ _).mp hvalid
  obtain ⟨_, -, hvalid⟩ := (bind_eq_ok _ _ _).mp hvalid
  obtain rfl := Except.ok.inj hvalid
  exact ⟨hheader, hbody⟩

theorem authenticate_eq_none (rt : Runtime) (trust : Trust T) (message : Json.Dict) (h : Heartbeat T)
    (hauth : authenticate rt trust message h = .ok none) :
    ∃ secret payload, trust.trustedKeys h.keyId = some (h.peerId, secret) ∧ 32 ≤ secret.length ∧
      canonicalBytes rt (unsignedPayload message) = .ok payload ∧ h.signature = rt.hmacHex secret payload := by
  unfold authenticate at hauth
  split at hauth
  · cases hauth
  · rename_i expected secret htrusted
    by_cases hpeer : h.peerId = expected
    case neg =>
      rw [if_pos hpeer] at hauth
      cases hauth
    rw [if_neg (not_not.mpr hpeer)] at hauth
    by_cases hlength : secret.length < 32
    · rw [if_pos hlength] at hauth
      cases hauth
    rw [if_neg hlength] at hauth
    obtain ⟨payload, hpayload, hauth⟩ := (bind_eq_ok _ _ _).mp hauth
    obtain ⟨equal, hequal, hauth⟩ := (bind_eq_ok _ _ _).mp hauth
    refine ⟨secret, payload, hpeer ▸ htrusted, by omega, hpayload, ?_⟩
    cases equal with
    | false => cases hauth
    | true =>
        unfold compareDigest at hequal
        split_ifs at hequal
        · simpa [ofOption] using hequal
        · cases hequal

end Inversion

section Runs

variable {T : Type} (rt : Runtime) (A : TimeArith T) (trust : Trust T)

-- The registry after these calls.
def after (events : List (Request T)) : PeerRegistry T := runFrom (step rt A trust) PeerRegistry.init events

-- The messages of this peer that were accepted, under any key, in this order.
def accepted (peer : PyStr) (events : List (Request T)) : List (Accepted T) :=
  collect (step rt A trust) (acceptOf rt A trust peer) PeerRegistry.init events

-- The signature of the message is the HMAC of its other fields under a trusted
-- key that is bound to the peer.
def Authenticated (message : Json.Dict) (peer : PyStr) (sequence : Int) : Prop :=
  ∃ keyId secret payload, trust.trustedKeys keyId = some (peer, secret) ∧ 32 ≤ secret.length ∧
    canonicalBytes rt (unsignedPayload message) = .ok payload ∧
    Json.lookup (py "peer_id") message.fields = some (.str peer) ∧
    Json.lookup (py "key_id") message.fields = some (.str keyId) ∧
    Json.lookup (py "sequence") message.fields = some (.int sequence) ∧
    Json.lookup (py "signature") message.fields = some (.str (rt.hmacHex secret payload))

theorem authenticated_of_passes (m : PeerRegistry T) (message : Json.Dict) (now : T) (h : Heartbeat T)
    (spent receivedAt : T) (hpasses : Passes rt A trust m message now h spent receivedAt) :
    Authenticated rt trust message h.peerId h.sequence := by
  obtain ⟨hheader, hbody⟩ := validate_eq_ok A message now h hpasses.valid
  obtain ⟨hpeer, hkey, hsequence, -⟩ := readHeader_eq_ok A message _ _ _ _ hheader
  obtain ⟨hsignature, -⟩ := readBody_eq_ok message _ hbody
  obtain ⟨secret, payload, htrusted, hlength, hpayload, hmac⟩ :=
    authenticate_eq_none rt trust message h hpasses.authentic
  exact ⟨h.keyId, secret, payload, htrusted, hlength, hpayload, hpeer, hkey, hsequence, hmac ▸ hsignature⟩

theorem acceptOf_eq_some (peer : PyStr) (m : PeerRegistry T) (r : Request T) (a : Accepted T)
    (haccept : acceptOf rt A trust peer m r = some a) :
    a.heartbeat.peerId = peer ∧ (step rt A trust m r).lastSequence.lookup peer = some a.heartbeat.sequence ∧
      (m.lastSequence.lookup peer).getD 0 < a.heartbeat.sequence ∧
      Authenticated rt trust a.message peer a.heartbeat.sequence := by
  have hstep := peerStep rt A trust m r peer
  rw [haccept] at hstep
  have hview : (view peer (step rt A trust m r)).sequence = (step rt A trust m r).lastSequence.lookup peer := rfl
  generalize view peer (step rt A trust m r) = v at hstep hview
  rw [← hview]
  cases hstep with
  | accepted _ spent receivedAt _ hpasses hpeer =>
      subst hpeer
      exact ⟨rfl, rfl, hpasses.newer, authenticated_of_passes rt A trust m _ _ _ _ _ hpasses⟩

theorem lastSequence_step (peer : PyStr) (m : PeerRegistry T) (r : Request T) :
    (m.lastSequence.lookup peer).getD 0 ≤ ((step rt A trust m r).lastSequence.lookup peer).getD 0 := by
  have hstep := peerStep rt A trust m r peer
  have hview : (view peer (step rt A trust m r)).sequence = (step rt A trust m r).lastSequence.lookup peer := rfl
  generalize view peer (step rt A trust m r) = v, acceptOf rt A trust peer m r = taken at hstep hview
  rw [← hview]
  cases hstep with
  | idle => exact le_rfl
  | accepted a spent receivedAt _ hpasses hpeer =>
      subst hpeer
      exact hpasses.newer.le
  | marked => exact le_rfl

theorem eachStep_true (m : PeerRegistry T) (events : List (Request T)) :
    EachStep (step rt A trust) (fun _ _ => True) m events :=
  EachStep.of_inv (fun _ => True) _ (fun _ _ _ => trivial) (fun _ _ _ => trivial) m events trivial

-- An accepted sequence is above all earlier ones, and the message is a new one.
theorem accepted_increasing (peer : PyStr) (events : List (Request T)) :
    (accepted rt A trust peer events).Pairwise fun old new =>
      old.heartbeat.sequence < new.heartbeat.sequence ∧ Json.norm old.message.json ≠ Json.norm new.message.json := by
  have hpairs : (accepted rt A trust peer events).Pairwise fun old new =>
      old.heartbeat.sequence < new.heartbeat.sequence := by
    apply collect_pairwise (fun _ _ => True) (fun m a => a.heartbeat.sequence ≤ (m.lastSequence.lookup peer).getD 0)
    · intro m r a _ haccept
      rw [(acceptOf_eq_some rt A trust peer m r a haccept).2.1]
      exact le_rfl
    · intro m r a _ hle
      exact hle.trans (lastSequence_step rt A trust peer m r)
    · intro m r old new _ hle haccept
      exact hle.trans_lt (acceptOf_eq_some rt A trust peer m r new haccept).2.2.1
    · exact eachStep_true rt A trust _ events
  have hauth : ∀ a ∈ accepted rt A trust peer events,
      Json.lookup (py "sequence") a.message.fields = some (.int a.heartbeat.sequence) := by
    refine collect_bound (fun _ _ => True)
      (fun _ (a : Accepted T) => Json.lookup (py "sequence") a.message.fields = some (.int a.heartbeat.sequence)) ?_
      (fun _ _ _ _ h => h) _ events (eachStep_true rt A trust _ events)
    intro m r a _ haccept
    obtain ⟨-, -, -, keyId, secret, payload, -, -, -, -, -, hsequence, -⟩ :=
      acceptOf_eq_some rt A trust peer m r a haccept
    exact hsequence
  refine hpairs.imp_of_mem fun {old new} hold hnew hlt => ⟨hlt, fun hnorm => ?_⟩
  have hsame := Json.lookup_eq_of_norm_eq old.message new.message (py "sequence") hnorm
  rw [hauth old hold, hauth new hnew] at hsame
  have := Json.int.inj (Option.some.inj hsame)
  omega

-- The registry knows the last accepted sequence of each peer, and the stored
-- result of a peer carries it.
theorem view_last (peer : PyStr) (events : List (Request T)) :
    (after rt A trust events).lastSequence.lookup peer =
        (accepted rt A trust peer events).getLast?.map (·.heartbeat.sequence) ∧
      ((after rt A trust events).states.lookup peer).map PeerResult.sequence =
        (accepted rt A trust peer events).getLast?.map fun a => some a.heartbeat.sequence := by
  induction events using List.reverseRecOn with
  | nil => exact ⟨rfl, rfl⟩
  | append_singleton events r ih =>
      obtain ⟨hlast, hresult⟩ := ih
      have hafter : after rt A trust (events ++ [r]) = step rt A trust (after rt A trust events) r :=
        runFrom_concat _ _ _
      have hstep := peerStep rt A trust (after rt A trust events) r peer
      have hsequence : (view peer (step rt A trust (after rt A trust events) r)).sequence =
          (step rt A trust (after rt A trust events) r).lastSequence.lookup peer := rfl
      have hstates : (view peer (step rt A trust (after rt A trust events) r)).result =
          (step rt A trust (after rt A trust events) r).states.lookup peer := rfl
      have hcollect : accepted rt A trust peer (events ++ [r]) =
          accepted rt A trust peer events ++ (acceptOf rt A trust peer (after rt A trust events) r).toList :=
        collect_concat _ _ _
      rw [hafter, hcollect, ← hsequence, ← hstates]
      generalize view peer (step rt A trust (after rt A trust events) r) = v,
        acceptOf rt A trust peer (after rt A trust events) r = taken at hstep
      cases hstep with
      | idle =>
          rw [Option.toList_none, List.append_nil]
          exact ⟨hlast, hresult⟩
      | accepted a spent receivedAt _ hpasses hpeer =>
          rw [Option.toList_some, List.getLast?_concat]
          exact ⟨rfl, congrArg some (acceptedResult_spec A trust a.heartbeat spent).2.2.1⟩
      | marked now result _ hfound =>
          rw [Option.toList_none, List.append_nil]
          rw [hfound] at hresult
          exact ⟨hlast, hresult⟩

theorem call_receive (m : PeerRegistry T) (message : Json.Dict) (now : T) (r : Request T) (result : PeerResult)
    (hr : r = .receive message now ∨ r = .receiveAndTrack message now)
    (hresult : (call rt A trust m r).1 = .ok (.result result)) :
    (receive rt A trust m message now).1 = .ok result := by
  have hmap : (receive rt A trust m message now).1.map Answer.result = .ok (.result result) := by
    rcases hr with rfl | rfl
    · exact hresult
    · rw [call, receiveAndTrack_eq] at hresult
      exact hresult
  cases hout : (receive rt A trust m message now).1 with
  | error e =>
      rw [hout] at hmap
      cases hmap
  | ok other =>
      rw [hout] at hmap
      rw [Answer.result.inj (Except.ok.inj hmap)]

-- A refused message leaves the registry as it was.
theorem step_invalid (m : PeerRegistry T) (r : Request T) (result : PeerResult)
    (hresult : (call rt A trust m r).1 = .ok (.result result)) (hinvalid : result.state = .invalid) :
    step rt A trust m r = m := by
  have hreceive : ∀ message now, r = .receive message now ∨ r = .receiveAndTrack message now →
      step rt A trust m r = m := by
    intro message now hr
    have hout := call_receive rt A trust m message now r result hr hresult
    rw [step_receive rt A trust m message now r hr]
    rcases receive_cases rt A trust m message now with ⟨out, hcall, -⟩ | ⟨h, spent, receivedAt, -, hcall⟩
    · rw [hcall]
    · rw [hcall] at hout
      obtain rfl := Except.ok.inj hout
      exact absurd hinvalid (acceptedResult_spec A trust h spent).1
  cases r with
  | receive message now => exact hreceive message now (.inl rfl)
  | receiveAndTrack message now => exact hreceive message now (.inr rfl)
  | markUnseenStale now =>
      rw [call] at hresult
      rcases hmark : markUnseenStale A trust m now with ⟨e | s, m'⟩
      · rw [hmark] at hresult
        cases hresult
      · rw [hmark] at hresult
        cases hresult

-- Every heartbeat that is accepted is authentic and newer than all before it, a
-- refused one changes nothing, and the stored results carry the last sequences.
theorem heartbeats_authenticated_once (events : List (Request T)) :
    (∀ message now result r, (r = .receive message now ∨ r = .receiveAndTrack message now) →
      (call rt A trust (after rt A trust events) r).1 = .ok (.result result) →
      result.state = .aliveVerified ∨ result.state = .stale →
      ∃ peer sequence, result.peerId = some peer ∧ result.sequence = some sequence ∧
        Authenticated rt trust message peer sequence ∧
        ∀ a ∈ accepted rt A trust peer events, a.heartbeat.sequence < sequence ∧
          Json.norm a.message.json ≠ Json.norm message.json) ∧
    (∀ r result, (call rt A trust (after rt A trust events) r).1 = .ok (.result result) →
      result.state = .invalid → step rt A trust (after rt A trust events) r = after rt A trust events) ∧
    ∀ peer result, (after rt A trust events).states.lookup peer = some result →
      ∃ a, (accepted rt A trust peer events).getLast? = some a ∧
        result.sequence = some a.heartbeat.sequence ∧
        (after rt A trust events).lastSequence.lookup peer = some a.heartbeat.sequence := by
  refine ⟨?_, step_invalid rt A trust _, ?_⟩
  · intro message now result r hr hresult hstate
    have hout := call_receive rt A trust _ message now r result hr hresult
    rcases receive_cases rt A trust (after rt A trust events) message now with ⟨out, hcall, hinvalid⟩ |
      ⟨h, spent, receivedAt, hpasses, hcall⟩
    · rw [hcall] at hout
      have := hinvalid result hout
      rcases hstate with h | h <;> rw [h] at this <;> cases this
    · rw [hcall] at hout
      obtain rfl := Except.ok.inj hout
      obtain ⟨-, hpeer, hsequence, -⟩ := acceptedResult_spec A trust h spent
      have haccept : acceptOf rt A trust h.peerId (after rt A trust events) (.receive message now) =
          some ⟨message, h, now⟩ := by
        simp only [acceptOf, hcall, hpasses.valid]
        rw [if_pos ⟨(acceptedResult_spec A trust h spent).1, trivial⟩]
      refine ⟨h.peerId, h.sequence, hpeer, hsequence,
        authenticated_of_passes rt A trust _ message now h spent receivedAt hpasses, ?_⟩
      have hpairs := accepted_increasing rt A trust h.peerId (events ++ [.receive message now])
      have hcollect : accepted rt A trust h.peerId (events ++ [.receive message now]) =
          accepted rt A trust h.peerId events ++ [⟨message, h, now⟩] := by
        refine (collect_concat _ _ _).trans ?_
        rw [show acceptOf rt A trust h.peerId (runFrom (step rt A trust) PeerRegistry.init events)
          (.receive message now) = some ⟨message, h, now⟩ from haccept]
        rfl
      rw [hcollect, List.pairwise_append] at hpairs
      exact fun a ha => hpairs.2.2 a ha _ (List.mem_singleton_self _)
  · intro peer result hlookup
    obtain ⟨hlast, hresult⟩ := view_last rt A trust peer events
    rw [hlookup] at hresult
    cases hget : (accepted rt A trust peer events).getLast? with
    | none =>
        rw [hget] at hresult
        cases hresult
    | some a =>
        rw [hget] at hlast hresult
        exact ⟨a, rfl, Option.some.inj hresult, hlast⟩

end Runs

def sampleFields (timestamp : Int) : List (PyStr × Json) :=
  [(py "schema_version", .int 1), (py "peer_id", .str (py "node-a")),
    (py "key_id", .str (py "node-a-key")), (py "sequence", .int 4), (py "timestamp", .int timestamp),
    (py "software_version", .str (py "test-1")), (py "capabilities", .arr []), (py "state", .str (py "READY")),
    (py "signature", .str (List.replicate 64 (cp '0')))]

theorem sampleFields_wf (timestamp : Int) : Json.Wf (.obj (sampleFields timestamp)) := by
  rw [Json.Wf, Json.wfFields_iff]
  have hkeys : required.Nodup := by decide +kernel
  refine ⟨hkeys, ?_⟩
  simp only [sampleFields, List.forall_mem_cons, List.not_mem_nil, false_implies, implies_true, Json.Wf,
    Json.WfItems, and_self]

def sampleMessage (timestamp : Int) : Json.Dict := ⟨sampleFields timestamp, sampleFields_wf timestamp⟩

def sampleRuntime : Runtime := ⟨fun _ => zeroDigest, fun _ => false, 1000⟩

def sampleTrust : Trust PyNum :=
  ⟨fun key => if key = py "node-a-key" then some (py "node-a", List.replicate 32 0) else none, .float 90.0,
    .float 15.0⟩

-- With a hash that is zero everywhere the message above is signed. Its replay is refused.
example : (receive sampleRuntime TimeArith.binary64 sampleTrust PeerRegistry.init (sampleMessage 1000)
      (.int 1005)).1.map PeerResult.state = .ok .aliveVerified ∧
    (receive sampleRuntime TimeArith.binary64 sampleTrust
      (receive sampleRuntime TimeArith.binary64 sampleTrust PeerRegistry.init (sampleMessage 1000) (.int 1005)).2
      (sampleMessage 1000) (.int 1006)).1.map PeerResult.state = .ok .invalid := by
  decide +kernel

end V91Core.PeerSync
