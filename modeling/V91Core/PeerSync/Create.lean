import V91Core.PeerSync.Untrusted
import V91Core.Python.Data

namespace V91Core.PeerSync

open V91Core.Python

-- The items of a tuple, when they are non-empty strings.
def textItems : List PyData → Option (List PyStr)
  | [] => some []
  | .str (c :: s) :: items => (textItems items).map ((c :: s) :: ·)
  | _ => none

def payloadFields (peerId keyId : PyStr) (sequence : Int) (timestamp : Float) (softwareVersion : PyStr)
    (capabilities : List PyStr) (state : PyStr) : List (PyStr × Json) :=
  [(py "schema_version", .int 1), (py "peer_id", .str peerId), (py "key_id", .str keyId),
    (py "sequence", .int sequence), (py "timestamp", .float timestamp),
    (py "software_version", .str softwareVersion),
    (py "capabilities", .arr ((capabilities.insertionSort fun a b => strLe a b = true).map .str)),
    (py "state", .str state)]

-- `payload["signature"] = signature`.
def signedFields (payload : List (PyStr × Json)) (signature : PyStr) : List (PyStr × Json) :=
  payload ++ [(py "signature", .str signature)]

theorem required_nodup : required.Nodup := by decide +kernel

theorem signedFields_wf (peerId keyId : PyStr) (sequence : Int) (timestamp : Float) (softwareVersion : PyStr)
    (capabilities : List PyStr) (state signature : PyStr) :
    Json.Wf (.obj (signedFields
      (payloadFields peerId keyId sequence timestamp softwareVersion capabilities state) signature)) := by
  refine ⟨required_nodup, trivial, trivial, trivial, trivial, trivial, trivial, ?_, trivial, trivial, trivial⟩
  rw [Json.Wf, Json.wfItems_iff]
  intro j hj
  obtain ⟨text, -, rfl⟩ := List.mem_map.mp hj
  trivial

-- `isinstance(secret, bytes) and len(secret) >= 32`.
def secretKey (secret : PyData) : Except PyExc Bytes :=
  match secret with
  | .bytes key =>
      if key.length < 32 then .error (.heartbeatError (py "secret must contain at least 32 bytes")) else .ok key
  | _ => .error (.heartbeatError (py "secret must contain at least 32 bytes"))

def sequenceNumber (sequence : PyData) : Except PyExc Int :=
  match sequence with
  | .int n => if n < 1 then .error (.heartbeatError (py "sequence must be a positive integer")) else .ok n
  | _ => .error (.heartbeatError (py "sequence must be a positive integer"))

-- `float(sent_at)`, where `time` is what `time.time()` gives.
def sentTime (timestamp : PyData) (time : Float) : Except PyExc Float := do
  let sentAt := match timestamp with
    | .none => PyData.float time
    | value => value
  let number ← ofOption (.heartbeatError (py "timestamp must be numeric")) sentAt.number?
  let finite ← number.isFinite
  check finite "timestamp must be finite"
  number.toFloat

-- `capabilities` is what `tuple(capabilities)` gives.
def createHeartbeat (rt : Runtime) (peerId keyId : PyStr) (secret sequence : PyData) (softwareVersion : PyStr)
    (capabilities : List PyData) (state : PyStr) (timestamp : PyData) (time : Float) : Except PyExc Json.Dict := do
  let key ← secretKey secret
  check (peerId ≠ [] && keyId ≠ [] && softwareVersion ≠ []) "peer_id, key_id and software_version are required"
  let number ← sequenceNumber sequence
  check (state ∈ peerStates) "unsupported peer state"
  let caps ← ofOption (.heartbeatError (py "capabilities must be non-empty strings")) (textItems capabilities)
  check caps.Nodup "capabilities must be unique"
  let sent ← sentTime timestamp time
  let payload ← canonicalBytes rt (.obj (payloadFields peerId keyId number sent softwareVersion caps state))
  .ok ⟨signedFields (payloadFields peerId keyId number sent softwareVersion caps state) (rt.hmacHex key payload),
    signedFields_wf ..⟩

theorem secretKey_eq_ok (secret : PyData) (key : Bytes) (h : secretKey secret = .ok key) :
    secret = .bytes key ∧ 32 ≤ key.length := by
  unfold secretKey at h
  split at h
  · split at h
    · cases h
    · obtain rfl := Except.ok.inj h
      exact ⟨rfl, by omega⟩
  · cases h

theorem sequenceNumber_eq_ok (sequence : PyData) (n : Int) (h : sequenceNumber sequence = .ok n) :
    sequence = .int n ∧ 1 ≤ n := by
  unfold sequenceNumber at h
  split at h
  · split at h
    · cases h
    · obtain rfl := Except.ok.inj h
      exact ⟨rfl, by omega⟩
  · cases h

theorem sentTime_finite (timestamp : PyData) (time sent : Float) (h : sentTime timestamp time = .ok sent) :
    Json.isFinite sent = true := by
  obtain ⟨number, -, h⟩ := (bind_eq_ok _ _ _).mp h
  obtain ⟨finite, hfinite, h⟩ := (bind_eq_ok _ _ _).mp h
  obtain ⟨_, hcheck, h⟩ := (bind_eq_ok _ _ _).mp h
  rw [PyNum.isFinite, h, (check_eq_ok _ _).mp hcheck] at hfinite
  exact Except.ok.inj hfinite

theorem textItems_eq_some (items : List PyData) (texts : List PyStr) (h : textItems items = some texts) :
    ∀ text ∈ texts, text ≠ [] := by
  induction items using textItems.induct generalizing texts with
  | case1 =>
      obtain rfl := Option.some.inj h
      exact nofun
  | case2 c s items ih =>
      obtain ⟨rest, hrest, rfl⟩ := Option.map_eq_some_iff.mp h
      exact List.forall_mem_cons.mpr ⟨List.cons_ne_nil c s, ih rest hrest⟩
  | case3 items hnil hcons =>
      rw [textItems] at h
      · cases h
      · exact hnil
      · exact hcons

-- What is known of a message that `create_heartbeat` returns.
structure CreatedFrom (rt : Runtime) (peerId keyId : PyStr) (key : Bytes) (sequence : Int) (softwareVersion : PyStr)
    (capabilities : List PyStr) (state : PyStr) (sent : Float) (payload : Bytes) : Prop where
  secret : 32 ≤ key.length
  peer : peerId ≠ []
  named : keyId ≠ []
  version : softwareVersion ≠ []
  positive : 1 ≤ sequence
  known : state ∈ peerStates
  texts : ∀ text ∈ capabilities, text ≠ []
  unique : capabilities.Nodup
  finite : Json.isFinite sent = true
  canonical : canonicalBytes rt
    (.obj (payloadFields peerId keyId sequence sent softwareVersion capabilities state)) = .ok payload

theorem createHeartbeat_eq_ok (rt : Runtime) (peerId keyId : PyStr) (secret sequence : PyData)
    (softwareVersion : PyStr) (capabilities : List PyData) (state : PyStr) (timestamp : PyData) (time : Float)
    (message : Json.Dict) (h : createHeartbeat rt peerId keyId secret sequence softwareVersion capabilities state
      timestamp time = .ok message) :
    ∃ key n caps sent payload, secret = .bytes key ∧ sequence = .int n ∧
      CreatedFrom rt peerId keyId key n softwareVersion caps state sent payload ∧
        message.fields = signedFields (payloadFields peerId keyId n sent softwareVersion caps state)
          (rt.hmacHex key payload) := by
  obtain ⟨key, hkey, h⟩ := (bind_eq_ok _ _ _).mp h
  obtain ⟨_, hnames, h⟩ := (bind_eq_ok _ _ _).mp h
  obtain ⟨n, hn, h⟩ := (bind_eq_ok _ _ _).mp h
  obtain ⟨_, hstate, h⟩ := (bind_eq_ok _ _ _).mp h
  obtain ⟨caps, hcaps, h⟩ := (bind_eq_ok _ _ _).mp h
  obtain ⟨_, hunique, h⟩ := (bind_eq_ok _ _ _).mp h
  obtain ⟨sent, hsent, h⟩ := (bind_eq_ok _ _ _).mp h
  obtain ⟨payload, hpayload, h⟩ := (bind_eq_ok _ _ _).mp h
  obtain rfl := Except.ok.inj h
  rw [check_eq_ok] at hnames hstate hunique
  simp only [Bool.and_eq_true, decide_eq_true_eq] at hnames hstate hunique
  obtain ⟨hsecret, hlength⟩ := secretKey_eq_ok secret key hkey
  obtain ⟨hsequence, hpositive⟩ := sequenceNumber_eq_ok sequence n hn
  have htexts := textItems_eq_some capabilities caps ((ofOption_eq_ok _ _ _).mp hcaps)
  exact ⟨key, n, caps, sent, payload, hsecret, hsequence, ⟨hlength, hnames.1.1, hnames.1.2, hnames.2, hpositive,
    hstate, htexts, hunique, sentTime_finite timestamp time sent hsent, hpayload⟩, rfl⟩

section Reading

variable (message : Json.Dict) (peerId keyId : PyStr) (sequence : Int) (softwareVersion : PyStr)
  (capabilities : List PyStr) (state : PyStr) (sent : Float) (signature : PyStr)

-- A dict with the content of a message, in any order of the keys.
def SameContent : Prop :=
  Json.norm message.json = Json.norm (.obj (signedFields
    (payloadFields peerId keyId sequence sent softwareVersion capabilities state) signature))

-- A value that is its own sorted form, and the only one with it.
def Plain (value : Json) : Prop := ∀ other, Json.norm other = Json.norm value → other = value

theorem plain_str (text : PyStr) : Plain (.str text) := by
  intro other h
  cases other <;> simp_all [Json.norm]

theorem plain_int (n : Int) : Plain (.int n) := by
  intro other h
  cases other <;> simp_all [Json.norm]

theorem plain_float (x : Float) : Plain (.float x) := by
  intro other h
  cases other <;> simp_all [Json.norm]

theorem plain_arr (items : List Json) (hitems : ∀ item ∈ items, Plain item) : Plain (.arr items) := by
  intro other h
  cases other with
  | arr others =>
      rw [Json.norm, Json.norm, Json.normItems_eq, Json.normItems_eq, Json.arr.injEq] at h
      refine congrArg Json.arr ?_
      induction items generalizing others with
      | nil => simpa using h
      | cons item items ih =>
          obtain ⟨hitem, hrest⟩ := List.forall_mem_cons.mp hitems
          cases others with
          | nil => cases h
          | cons first others =>
              obtain ⟨hfirst, hothers⟩ := List.cons.inj h
              rw [hitem first hfirst, ih hrest others hothers]
  | _ => simp [Json.norm] at h

variable (h : SameContent message peerId keyId sequence softwareVersion capabilities state sent signature)

include h

theorem lookup_sameContent (key : PyStr) (value : Json) (hplain : Plain value)
    (hlookup : Json.lookup key (signedFields
      (payloadFields peerId keyId sequence sent softwareVersion capabilities state) signature) = some value) :
    subscript message.json key = .ok value := by
  have hsame := Json.lookup_eq_of_norm_eq message ⟨_, signedFields_wf peerId keyId sequence sent softwareVersion
    capabilities state signature⟩ key h
  rw [hlookup, Option.map_some, Option.map_eq_some_iff] at hsame
  obtain ⟨other, hother, hnorm⟩ := hsame
  rw [hplain other hnorm] at hother
  exact (subscript_eq_ok _ _ _).mpr ⟨message.fields, rfl, hother⟩

theorem hasRequired_sameContent : hasRequired message = true := by
  have hperm := (Json.norm_obj_eq_iff message.fields _ message.wf.1).mp h
  have hkeys := hperm.map Prod.fst
  simp only [Json.normFields_eq, List.map_map] at hkeys
  change (message.fields.map Prod.fst).Perm required at hkeys
  rw [hasRequired, Bool.and_eq_true, List.all_eq_true, List.all_eq_true]
  constructor
  · intro key hkey
    exact decide_eq_true (hkeys.mem_iff.mp hkey)
  · intro key hkey
    exact decide_eq_true (hkeys.mem_iff.mpr hkey)

end Reading

theorem nonEmptyStr_ok (text : PyStr) (msg : String) (h : text ≠ []) : nonEmptyStr (.str text) msg = .ok text := by
  cases text with
  | nil => exact absurd rfl h
  | cons c text => rfl

theorem nonEmptyStrs_ok (texts : List PyStr) (msg : String) (h : ∀ text ∈ texts, text ≠ []) :
    nonEmptyStrs (.arr (texts.map .str)) msg = .ok texts := by
  change (texts.map Json.str).mapM (nonEmptyStr · msg) = .ok texts
  induction texts with
  | nil => rfl
  | cons text texts ih =>
      obtain ⟨hfirst, hrest⟩ := List.forall_mem_cons.mp h
      rw [List.map_cons, List.mapM_cons, nonEmptyStr_ok text msg hfirst, ih hrest]
      rfl

section Receiving

variable (rt : Runtime) (peerId keyId : PyStr) (key : Bytes) (sequence : Int) (softwareVersion : PyStr)
  (capabilities : List PyStr) (state : PyStr) (sent : Float) (payload : Bytes)
  (hcreated : CreatedFrom rt peerId keyId key sequence softwareVersion capabilities state sent payload)
  (message : Json.Dict)
  (hmessage : SameContent message peerId keyId sequence softwareVersion capabilities state sent
    (rt.hmacHex key payload))

-- What validation reads from the message.
def heartbeatOf : Heartbeat PyNum := ⟨peerId, keyId, sequence, .float sent, rt.hmacHex key payload⟩

include hcreated hmessage

theorem readHeader_created :
    readHeader TimeArith.binary64 message = .ok (peerId, keyId, sequence, .float sent) := by
  have hlookup := lookup_sameContent message peerId keyId sequence softwareVersion capabilities state sent
    (rt.hmacHex key payload) hmessage
  have hrequired := hasRequired_sameContent message peerId keyId sequence softwareVersion capabilities state sent
    (rt.hmacHex key payload) hmessage
  rw [readHeader, hrequired, hlookup (py "peer_id") _ (plain_str peerId) rfl,
    hlookup (py "key_id") _ (plain_str keyId) rfl, hlookup (py "sequence") _ (plain_int sequence) rfl,
    hlookup (py "timestamp") _ (plain_float sent) rfl, hlookup (py "schema_version") _ (plain_int 1) rfl]
  change (nonEmptyStr (.str peerId) "invalid peer_id" >>= fun peerId =>
    nonEmptyStr (.str keyId) "invalid key_id" >>= fun keyId =>
    positiveInt (.int sequence) "invalid sequence" >>= fun sequence =>
    number TimeArith.binary64 (.float sent) "invalid timestamp" >>= fun timestamp =>
      .ok (peerId, keyId, sequence, timestamp)) = _
  have hpositive : positiveInt (.int sequence) "invalid sequence" = .ok sequence := by
    have hnot := hcreated.positive
    exact if_neg (by omega)
  rw [nonEmptyStr_ok peerId _ hcreated.peer, nonEmptyStr_ok keyId _ hcreated.named, hpositive]
  rfl

theorem readBody_created : readBody message = .ok (rt.hmacHex key payload) := by
  have hlookup := lookup_sameContent message peerId keyId sequence softwareVersion capabilities state sent
    (rt.hmacHex key payload) hmessage
  have hperm : (capabilities.insertionSort fun a b => strLe a b = true).Perm capabilities :=
    List.perm_insertionSort _ capabilities
  have hplain : ∀ item ∈ (capabilities.insertionSort fun a b => strLe a b = true).map Json.str, Plain item := by
    intro item hitem
    obtain ⟨text, -, rfl⟩ := List.mem_map.mp hitem
    exact plain_str text
  have htexts : ∀ text ∈ capabilities.insertionSort fun a b => strLe a b = true, text ≠ [] :=
    fun text htext => hcreated.texts text (hperm.mem_iff.mp htext)
  rw [readBody, hlookup (py "software_version") _ (plain_str softwareVersion) rfl,
    hlookup (py "capabilities") _ (plain_arr _ hplain) rfl, hlookup (py "state") _ (plain_str state) rfl,
    hlookup (py "signature") _ (plain_str _) rfl]
  change (nonEmptyStr (.str softwareVersion) "invalid software_version" >>= fun _ =>
    nonEmptyStrs (.arr _) "invalid capabilities" >>= fun capabilities =>
    check (decide capabilities.Nodup) "duplicate capabilities" >>= fun _ =>
    check (decide (state ∈ peerStates)) "invalid state" >>= fun _ =>
      signature64 (.str (rt.hmacHex key payload)) "invalid signature format") = _
  have hunique : check (decide (capabilities.insertionSort fun a b => strLe a b = true).Nodup)
      "duplicate capabilities" = .ok () :=
    (check_eq_ok _ _).mpr (decide_eq_true (hperm.nodup_iff.mpr hcreated.unique))
  rw [nonEmptyStr_ok softwareVersion _ hcreated.version, nonEmptyStrs_ok _ _ htexts]
  change (check _ "duplicate capabilities" >>= fun _ =>
    check (decide (state ∈ peerStates)) "invalid state" >>= fun _ =>
      signature64 (.str (rt.hmacHex key payload)) "invalid signature format") = _
  rw [hunique, (check_eq_ok (decide (state ∈ peerStates)) "invalid state").mpr (decide_eq_true hcreated.known)]
  exact if_pos (hexdigest_length _)

theorem validate_created (now : PyNum) (hnow : now.isFinite = .ok true) :
    validate TimeArith.binary64 message now =
      .ok (heartbeatOf rt peerId keyId key sequence sent payload) := by
  rw [validate, readHeader_created rt peerId keyId key sequence softwareVersion capabilities state sent payload hcreated
    message hmessage]
  have hsent : checkFinite TimeArith.binary64 (.float sent) "invalid timestamp" = .ok () :=
    (checkFinite_eq_ok _ _ _).mpr (congrArg Except.ok hcreated.finite)
  have hreceived : checkFinite TimeArith.binary64 now "invalid receiver time" = .ok () :=
    (checkFinite_eq_ok _ _ _).mpr hnow
  change (checkFinite TimeArith.binary64 (.float sent) "invalid timestamp" >>= fun _ =>
    readBody message >>= fun signature => checkFinite TimeArith.binary64 now "invalid receiver time" >>= fun _ =>
      .ok (⟨peerId, keyId, sequence, .float sent, signature⟩ : Heartbeat PyNum)) = _
  rw [hsent, readBody_created rt peerId keyId key sequence softwareVersion capabilities state sent payload hcreated
    message hmessage, hreceived]
  rfl

-- The receiver signs the same canonical bytes.
theorem canonicalBytes_received : canonicalBytes rt (unsignedPayload message) = .ok payload := by
  have hnorm : Json.norm (unsignedPayload message) =
      Json.norm (.obj (payloadFields peerId keyId sequence sent softwareVersion capabilities state)) :=
    Json.norm_erase_congr (py "signature") message ⟨_, signedFields_wf ..⟩ hmessage
  have hencode := Json.encode_congr canonicalStyle rfl rt.nesting _ _ hnorm
  have hsigned := hcreated.canonical
  rw [canonicalBytes, dumps] at hsigned ⊢
  rwa [hencode]

theorem authenticate_created (trust : Trust PyNum) (htrust : trust.trustedKeys keyId = some (peerId, key)) :
    authenticate rt trust message (heartbeatOf rt peerId keyId key sequence sent payload) = .ok none := by
  have hlength := hcreated.secret
  have hkey : trust.trustedKeys (heartbeatOf rt peerId keyId key sequence sent payload).keyId = some (peerId, key) :=
    htrust
  unfold authenticate
  rw [hkey]
  dsimp only
  have hpeer : ¬ (heartbeatOf rt peerId keyId key sequence sent payload).peerId ≠ peerId := not_not.mpr rfl
  rw [if_neg hpeer, if_neg (by omega), canonicalBytes_received rt peerId keyId key
    sequence softwareVersion capabilities state sent payload hcreated message hmessage]
  have hascii : isAscii (rt.hmacHex key payload) = true := isAscii_hexdigest _
  have hequal : compareDigest (rt.hmacHex key payload) (rt.hmacHex key payload) = some true := by
    simp [compareDigest, hascii]
  change (ofOption PyExc.typeError (compareDigest (rt.hmacHex key payload) (rt.hmacHex key payload)) >>= _) = _
  rw [hequal]
  rfl

end Receiving

theorem receive_passes {T : Type} (rt : Runtime) (A : TimeArith T) (trust : Trust T) (m : PeerRegistry T)
    (message : Json.Dict) (now : T) (h : Heartbeat T) (spent receivedAt : T)
    (hpasses : Passes rt A trust m message now h spent receivedAt) :
    (receive rt A trust m message now).1 = .ok (acceptedResult A trust h spent) := by
  have hnewer := hpasses.newer
  rw [receive, hpasses.valid]
  dsimp only
  rw [hpasses.authentic]
  dsimp only
  rw [hpasses.aged]
  dsimp only
  rw [hpasses.arrived, if_neg Bool.false_ne_true, if_neg (by omega), acceptedResult]
  cases A.lt trust.maxAge spent with
  | true => rfl
  | false => rfl

section Window

-- `-max_future_skew <= now - timestamp <= max_age`.
structure InWindow (trust : Trust PyNum) (now timestamp spent : PyNum) : Prop where
  difference : PyNum.sub now timestamp = .ok spent
  arrived : PyNum.le trust.futureSkew.neg spent = true
  fresh : PyNum.le spent trust.maxAge = true

theorem not_lt_of_le (a b : PyNum) (h : PyNum.le a b = true) : PyNum.lt b a = false := by
  unfold PyNum.le at h
  unfold PyNum.lt
  cases ha : a.value with
  | none =>
      rw [ha] at h
      cases h
  | some p =>
      cases hb : b.value with
      | none => rfl
      | some q =>
          rw [ha, hb] at h
          simpa using h

theorem age_of_difference (now spent : PyNum) (sent : Float) (h : PyNum.sub now (.float sent) = .ok spent) :
    ∃ receivedAt, age TimeArith.binary64 now (.float sent) = .ok (spent, receivedAt) := by
  have hsub : (now.toFloat >>= fun x => .ok (.float (x - sent))) = (.ok spent : Except PyExc PyNum) := by
    cases now with
    | int n => exact h
    | float x => exact h
  obtain ⟨x, hx, hspent⟩ := (bind_eq_ok _ _ _).mp hsub
  obtain rfl := Except.ok.inj hspent
  refine ⟨.float x, ?_⟩
  change (now.toFloat.map PyNum.float >>= fun receivedAt => _) = _
  rw [hx]
  rfl

end Window

section Accepted

variable (rt : Runtime) (trust : Trust PyNum) (m : PeerRegistry PyNum) (now : PyNum)

-- The registry answers ALIVE_VERIFIED with this sequence.
def AcceptsAlive (message : Json.Dict) (sequence : Int) : Prop :=
  ∃ result, (receive rt TimeArith.binary64 trust m message now).1 = .ok result ∧
    result.state = .aliveVerified ∧ result.sequence = some sequence

variable (peerId keyId : PyStr) (key : Bytes) (sequence : Int) (softwareVersion : PyStr)
  (capabilities : List PyStr) (state : PyStr) (sent : Float) (payload : Bytes)
  (hcreated : CreatedFrom rt peerId keyId key sequence softwareVersion capabilities state sent payload)

include hcreated

theorem acceptsAlive_created (message : Json.Dict)
    (hmessage : SameContent message peerId keyId sequence softwareVersion capabilities state sent
      (rt.hmacHex key payload))
    (htrust : trust.trustedKeys keyId = some (peerId, key))
    (hnewer : (m.lastSequence.lookup peerId).getD 0 < sequence) (hnow : now.isFinite = .ok true) (spent : PyNum)
    (hwindow : InWindow trust now (.float sent) spent) : AcceptsAlive rt trust m now message sequence := by
  obtain ⟨receivedAt, haged⟩ := age_of_difference now spent sent hwindow.difference
  have hvalid := validate_created rt peerId keyId key sequence softwareVersion capabilities state sent payload
    hcreated message hmessage now hnow
  have hauthentic := authenticate_created rt peerId keyId key sequence softwareVersion capabilities state sent
    payload hcreated message hmessage trust htrust
  have hpasses : Passes rt TimeArith.binary64 trust m message now
      (heartbeatOf rt peerId keyId key sequence sent payload) spent receivedAt :=
    ⟨hvalid, hauthentic, haged, not_lt_of_le _ _ hwindow.arrived, hnewer⟩
  obtain ⟨-, -, hsequence, halive⟩ := acceptedResult_spec TimeArith.binary64 trust
    (heartbeatOf rt peerId keyId key sequence sent payload) spent
  exact ⟨_, receive_passes rt _ trust m message now _ spent receivedAt hpasses,
    halive.mpr (not_lt_of_le _ _ hwindow.fresh), hsequence⟩

-- The signature adds to the payload nothing that JSON or UTF-8 cannot carry.
theorem signedFields_carried :
    Json.Fits false rt.nesting (.obj (signedFields
        (payloadFields peerId keyId sequence sent softwareVersion capabilities state) (rt.hmacHex key payload))) ∧
      Json.AllChars (fun c => c.isSurrogate = false) (.obj (signedFields
        (payloadFields peerId keyId sequence sent softwareVersion capabilities state) (rt.hmacHex key payload))) := by
  obtain ⟨⟨hpos, hfits⟩, hchars⟩ :=
    (Json.dumps_utf8_isOk rt canonicalStyle rfl (.obj (payloadFields peerId keyId sequence sent softwareVersion
      capabilities state))).mp ⟨payload, hcreated.canonical⟩
  rw [Json.fitsFields_iff] at hfits
  rw [Json.AllChars, Json.allCharsFields_iff] at hchars
  constructor
  · refine ⟨hpos, (Json.fitsFields_iff _ _ _).mpr fun f hf => ?_⟩
    rcases List.mem_append.mp hf with hf | hf
    · exact hfits f hf
    · obtain rfl := List.mem_singleton.mp hf
      trivial
  · rw [Json.AllChars, Json.allCharsFields_iff]
    intro f hf
    rcases List.mem_append.mp hf with hf | hf
    · exact hchars f hf
    · obtain rfl := List.mem_singleton.mp hf
      exact ⟨ascii_encodable (py "signature") (by decide), ascii_encodable _ (isAscii_hexdigest _)⟩

end Accepted

section Main

variable (rt : Runtime) (trust : Trust PyNum) (m : PeerRegistry PyNum)

-- Every heartbeat that is created is accepted while it is fresh, also after a dump and
-- a load of it.
theorem created_heartbeat_accepted (peerId keyId softwareVersion state : PyStr) (key : Bytes) (sequence : Int)
    (capabilities : List PyData) (timestamp : PyData) (time : Float) (message : Json.Dict)
    (hcreate : createHeartbeat rt peerId keyId (.bytes key) (.int sequence) softwareVersion capabilities state
      timestamp time = .ok message)
    (htrust : trust.trustedKeys keyId = some (peerId, key))
    (hnewer : (m.lastSequence.lookup peerId).getD 0 < sequence)
    (now spent : PyNum) (sent : Float) (hsent : subscript message.json (py "timestamp") = .ok (.float sent))
    (hwindow : InWindow trust now (.float sent) spent) (hnow : now.isFinite = .ok true) :
    AcceptsAlive rt trust m now message sequence ∧
      ∀ st : Json.Style, (∃ text, dumps rt st message.json = .ok text) ∧
        ∀ text, dumps rt st message.json = .ok text →
          ∃ document : Json.Dict, loadsText rt text = .ok document.json ∧
            AcceptsAlive rt trust m now document sequence := by
  obtain ⟨key', n, caps, sent', payload, hkey, hn, hcreated, hfields⟩ :=
    createHeartbeat_eq_ok rt peerId keyId _ _ softwareVersion capabilities state timestamp time message hcreate
  obtain rfl := PyData.bytes.inj hkey
  obtain rfl := PyData.int.inj hn
  have hsame : SameContent message peerId keyId sequence softwareVersion caps state sent' (rt.hmacHex key payload) := by
    rw [SameContent, Json.Dict.json, hfields]
  obtain rfl : sent' = sent := by
    have hlookup := lookup_sameContent message peerId keyId sequence softwareVersion caps state sent' _ hsame
      (py "timestamp") _ (plain_float sent') rfl
    exact Json.float.inj (Except.ok.inj (hlookup.symm.trans hsent))
  have haccepts : ∀ document, SameContent document peerId keyId sequence softwareVersion caps state sent'
      (rt.hmacHex key payload) → AcceptsAlive rt trust m now document sequence := fun document hdocument =>
    acceptsAlive_created rt trust m now peerId keyId key sequence softwareVersion caps state sent' payload hcreated
      document hdocument htrust hnewer hnow spent hwindow
  obtain ⟨hfits, hchars⟩ :=
    signedFields_carried rt peerId keyId key sequence softwareVersion caps state sent' payload hcreated
  rw [← hfields] at hfits hchars
  refine ⟨haccepts message hsame, fun st => ⟨?_, fun text htext => ?_⟩⟩
  · obtain ⟨text, htext⟩ := (Json.encode_isOk_iff st rt.nesting message.json).mpr
      (Json.fits_of_strict st.allowNan rt.nesting _ hfits)
    exact ⟨text, (dumps_eq_ok rt st _ text).mpr htext⟩
  · obtain ⟨document, hloads, horder⟩ := Json.loads_dumps rt st message hchars text htext
    refine ⟨document, hloads, haccepts document ?_⟩
    rw [SameContent, horder, Json.norm_order]
    exact hsame

end Main

section Samples

def sampleKey : Bytes := List.replicate 32 0

def sampleHeartbeat : Except PyExc Json.Dict :=
  createHeartbeat sampleRuntime (py "node-a") (py "node-a-key") (.bytes sampleKey) (.int 4) (py "test-1")
    [.str (py "sync"), .str (py "audit")] (py "READY") .none 1000.0

theorem sampleHeartbeat_created : ∃ message, sampleHeartbeat = .ok message ∧
    subscript message.json (py "timestamp") = .ok (.float 1000.0) := by
  have hsent : (sampleHeartbeat >>= fun message => subscript message.json (py "timestamp")) = .ok (.float 1000.0) := by
    decide +kernel
  exact (bind_eq_ok _ _ _).mp hsent

theorem created_heartbeat_sample : ∃ message, sampleHeartbeat = .ok message ∧
    AcceptsAlive sampleRuntime sampleTrust PeerRegistry.init (.int 1005) message 4 := by
  obtain ⟨message, hcreate, hsent⟩ := sampleHeartbeat_created
  have hwindow : InWindow sampleTrust (.int 1005) (.float 1000.0) (.float 5.0) :=
    ⟨by decide +kernel, by decide +kernel, by decide +kernel⟩
  exact ⟨message, hcreate, (created_heartbeat_accepted sampleRuntime sampleTrust PeerRegistry.init (py "node-a")
    (py "node-a-key") (py "test-1") (py "READY") sampleKey 4 [.str (py "sync"), .str (py "audit")] .none 1000.0 message
    hcreate (by decide +kernel) (by decide) (.int 1005) (.float 5.0) 1000.0 hsent hwindow (by decide +kernel)).1⟩

def infinite : Float := 1.0 / 0.0

-- A registry in which no heartbeat becomes stale.
def endlessTrust : Trust PyNum := { sampleTrust with maxAge := .float infinite }

-- `-15.0 <= inf - 1000.0 <= inf` holds, but the receiver time is refused.
theorem infinite_time_refused : ∃ message, sampleHeartbeat = .ok message ∧
    endlessTrust.trustedKeys (py "node-a-key") = some (py "node-a", sampleKey) ∧
    ((PeerRegistry.init : PeerRegistry PyNum).lastSequence.lookup (py "node-a")).getD 0 < (4 : Int) ∧
    subscript message.json (py "timestamp") = .ok (.float 1000.0) ∧
    InWindow endlessTrust (.float infinite) (.float 1000.0) (.float infinite) ∧
    ¬ AcceptsAlive sampleRuntime endlessTrust PeerRegistry.init (.float infinite) message 4 := by
  obtain ⟨message, hcreate, hsent⟩ := sampleHeartbeat_created
  have hrefused : (sampleHeartbeat >>= fun message => (receive sampleRuntime TimeArith.binary64 endlessTrust
      PeerRegistry.init message (.float infinite)).1.map PeerResult.state) = .ok .invalid := by
    decide +kernel
  have hwindow : InWindow endlessTrust (.float infinite) (.float 1000.0) (.float infinite) :=
    ⟨by decide +kernel, by decide +kernel, by decide +kernel⟩
  refine ⟨message, hcreate, by decide +kernel, by decide, hsent, hwindow, ?_⟩
  rintro ⟨result, hresult, halive, -⟩
  rw [hcreate] at hrefused
  change Except.map PeerResult.state _ = _ at hrefused
  rw [hresult] at hrefused
  have hinvalid : result.state = .invalid := Except.ok.inj hrefused
  rw [halive] at hinvalid
  cases hinvalid

end Samples

end V91Core.PeerSync
