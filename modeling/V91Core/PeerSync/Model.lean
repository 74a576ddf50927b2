import V91Core.Json.Str
import V91Core.Python.Hmac
import V91Core.Python.Numeric
import Mathlib.Data.List.AList

namespace V91Core.PeerSync

open V91Core.Python

-- The receiver's arithmetic on times. `binary64` is the one of the interpreter,
-- and `exact` computes with rational numbers instead.
structure TimeArith (T : Type) where
  ofJson : Json → Option T
  isFinite : T → Except PyExc Bool
  toFloat : T → Except PyExc T
  sub : T → T → Except PyExc T
  neg : T → T
  lt : T → T → Bool

def TimeArith.binary64 : TimeArith PyNum where
  ofJson := PyNum.ofJson
  isFinite := PyNum.isFinite
  toFloat a := a.toFloat.map .float
  sub := PyNum.sub
  neg := PyNum.neg
  lt := PyNum.lt

def TimeArith.exact (read : Json → Option ℚ) : TimeArith ℚ where
  ofJson := read
  isFinite _ := .ok true
  toFloat a := .ok a
  sub a b := .ok (a - b)
  neg a := -a
  lt a b := a < b

inductive PeerState where
  | invalid
  | stale
  | aliveVerified
deriving DecidableEq

structure PeerResult where
  peerId : Option PyStr
  state : PeerState
  reason : PyStr
  sequence : Option Int
deriving DecidableEq

-- What `__init__` keeps: the trusted keys with their peers and secrets, and the
-- freshness limits.
structure Trust (T : Type) where
  trustedKeys : PyStr → Option (PyStr × Bytes)
  maxAge : T
  futureSkew : T

-- The three dicts of a registry that change. The order of their keys is not used.
structure PeerRegistry (T : Type) where
  lastSequence : AList fun _ : PyStr => Int
  states : AList fun _ : PyStr => PeerResult
  acceptedAt : AList fun _ : PyStr => T

def PeerRegistry.init {T : Type} : PeerRegistry T := ⟨∅, ∅, ∅⟩

-- What validation reads from a message.
structure Heartbeat (T : Type) where
  peerId : PyStr
  keyId : PyStr
  sequence : Int
  timestamp : T
  signature : PyStr

def required : List PyStr :=
  [py "schema_version", py "peer_id", py "key_id", py "sequence", py "timestamp", py "software_version",
    py "capabilities", py "state", py "signature"]

section Validation

def check (ok : Bool) (msg : String) : Except PyExc Unit :=
  if ok then .ok () else .error (.heartbeatError (py msg))

-- `set(message) == required`.
def hasRequired (message : Json.Dict) : Bool :=
  (message.fields.map Prod.fst).all (· ∈ required) && required.all (· ∈ message.fields.map Prod.fst)

-- `not isinstance(value, bool) and value == SCHEMA_VERSION`.
def isSchemaVersion : Json → Bool
  | .bool _ => false
  | value => Json.eqInt 1 value

def nonEmptyStr (value : Json) (msg : String) : Except PyExc PyStr :=
  match value with
  | .str (c :: s) => .ok (c :: s)
  | _ => .error (.heartbeatError (py msg))

def positiveInt (value : Json) (msg : String) : Except PyExc Int :=
  match value with
  | .int n => if n < 1 then .error (.heartbeatError (py msg)) else .ok n
  | _ => .error (.heartbeatError (py msg))

def nonEmptyStrs (value : Json) (msg : String) : Except PyExc (List PyStr) :=
  match value with
  | .arr items => items.mapM (nonEmptyStr · msg)
  | _ => .error (.heartbeatError (py msg))

def peerStates : List PyStr := [py "READY", py "BUSY", py "DEGRADED", py "STOPPING"]

-- `value in {...}` hashes the value first.
def inPeerStates : Json → Except PyExc Bool
  | .str s => .ok (s ∈ peerStates)
  | .arr _ => .error (.unhashable (py "list"))
  | .obj _ => .error (.unhashable (py "dict"))
  | _ => .ok false

def signature64 (value : Json) (msg : String) : Except PyExc PyStr :=
  match value with
  | .str s => if s.length = 64 then .ok s else .error (.heartbeatError (py msg))
  | _ => .error (.heartbeatError (py msg))

variable {T : Type} (A : TimeArith T)

def number (value : Json) (msg : String) : Except PyExc T :=
  ofOption (.heartbeatError (py msg)) (A.ofJson value)

def checkFinite (value : T) (msg : String) : Except PyExc Unit := do
  let finite ← A.isFinite value
  check finite msg

-- The part of the `try` block before `math.isfinite(timestamp)`.
def readHeader (message : Json.Dict) : Except PyExc (PyStr × PyStr × Int × T) := do
  check (hasRequired message) "schema fields do not match"
  let peerId ← subscript message.json (py "peer_id")
  let keyId ← subscript message.json (py "key_id")
  let sequence ← subscript message.json (py "sequence")
  let timestamp ← subscript message.json (py "timestamp")
  let schemaVersion ← subscript message.json (py "schema_version")
  check (isSchemaVersion schemaVersion) "unsupported schema version"
  let peerId ← nonEmptyStr peerId "invalid peer_id"
  let keyId ← nonEmptyStr keyId "invalid key_id"
  let sequence ← positiveInt sequence "invalid sequence"
  let timestamp ← number A timestamp "invalid timestamp"
  .ok (peerId, keyId, sequence, timestamp)

-- The part between the two finiteness checks.
def readBody (message : Json.Dict) : Except PyExc PyStr := do
  let softwareVersion ← subscript message.json (py "software_version")
  let _ ← nonEmptyStr softwareVersion "invalid software_version"
  let capabilities ← subscript message.json (py "capabilities")
  let capabilities ← nonEmptyStrs capabilities "invalid capabilities"
  check (decide capabilities.Nodup) "duplicate capabilities"
  let state ← subscript message.json (py "state")
  let known ← inPeerStates state
  check known "invalid state"
  let signature ← subscript message.json (py "signature")
  signature64 signature "invalid signature format"

def validate (message : Json.Dict) (now : T) : Except PyExc (Heartbeat T) := do
  let (peerId, keyId, sequence, timestamp) ← readHeader A message
  checkFinite A timestamp "invalid timestamp"
  let signature ← readBody message
  checkFinite A now "invalid receiver time"
  .ok ⟨peerId, keyId, sequence, timestamp, signature⟩

end Validation

-- `sort_keys=True, separators=(",", ":"), ensure_ascii=False, allow_nan=False`.
def canonicalStyle : Json.Style := ⟨false, true, false, false⟩

def canonicalBytes (rt : Runtime) (payload : Json) : Except PyExc Bytes := do
  let text ← dumps rt canonicalStyle payload
  encodeUtf8 text

def unsignedPayload (message : Json.Dict) : Json := .obj (Json.erase (py "signature") message.fields)

section Receive

variable {T : Type} (rt : Runtime) (A : TimeArith T) (trust : Trust T)

-- The reason to refuse a heartbeat that is not authentic.
def authenticate (message : Json.Dict) (h : Heartbeat T) : Except PyExc (Option PyStr) :=
  match trust.trustedKeys h.keyId with
  | none => .ok (some (py "unknown key_id"))
  | some (expectedPeerId, secret) =>
      if h.peerId ≠ expectedPeerId then .ok (some (py "key is not bound to this peer_id"))
      else if secret.length < 32 then .ok (some (py "trusted key material is invalid"))
      else do
        let payload ← canonicalBytes rt (unsignedPayload message)
        let equal ← ofOption .typeError (compareDigest h.signature (rt.hmacHex secret payload))
        if equal then .ok none else .ok (some (py "signature verification failed"))

-- `float(current_time) - float(timestamp)`, and the first of the two.
def age (now timestamp : T) : Except PyExc (T × T) := do
  let receivedAt ← A.toFloat now
  let sentAt ← A.toFloat timestamp
  let age ← A.sub receivedAt sentAt
  .ok (age, receivedAt)

def Heartbeat.result (h : Heartbeat T) (state : PeerState) (reason : String) : PeerResult :=
  ⟨some h.peerId, state, py reason, some h.sequence⟩

-- `except (HeartbeatError, TypeError, ValueError)`.
def isRefusal (e : PyExc) : Bool := e.isTypeError || e.isValueError

def receive (m : PeerRegistry T) (message : Json.Dict) (now : T) : Except PyExc PeerResult × PeerRegistry T :=
  match validate A message now with
  | .error e => (if isRefusal e then .ok ⟨none, .invalid, e.text, none⟩ else .error e, m)
  | .ok h =>
      match authenticate rt trust message h with
      | .error e => (.error e, m)
      | .ok (some reason) => (.ok ⟨some h.peerId, .invalid, reason, some h.sequence⟩, m)
      | .ok none =>
          match age A now h.timestamp with
          | .error e => (.error e, m)
          | .ok (age, receivedAt) =>
              if A.lt age (A.neg trust.futureSkew) then
                (.ok (h.result .invalid "heartbeat timestamp is too far in the future"), m)
              else if h.sequence ≤ (m.lastSequence.lookup h.peerId).getD 0 then
                (.ok (h.result .invalid "replay or non-increasing sequence"), m)
              else
                let m := { m with lastSequence := m.lastSequence.insert h.peerId h.sequence }
                if A.lt trust.maxAge age then
                  let result := h.result .stale "heartbeat exceeded freshness window"
                  (.ok result, { m with states := m.states.insert h.peerId result })
                else
                  let result := h.result .aliveVerified "signature and freshness verified"
                  (.ok result,
                    { m with
                      states := m.states.insert h.peerId result
                      acceptedAt := m.acceptedAt.insert h.peerId receivedAt })

def receiveAndTrack (m : PeerRegistry T) (message : Json.Dict) (now : T) :
    Except PyExc PeerResult × PeerRegistry T :=
  match receive rt A trust m message now with
  | (.error e, m) => (.error e, m)
  | (.ok result, m) =>
      match result.state, result.peerId with
      | .aliveVerified, some peerId =>
          match A.toFloat now with
          | .error e => (.error e, m)
          | .ok receivedAt => (.ok result, { m with acceptedAt := m.acceptedAt.insert peerId receivedAt })
      | _, _ => (.ok result, m)

-- The loop of `mark_unseen_stale` over the items that `_states` had before it.
def markItems (acceptedAt : AList fun _ : PyStr => T) (now : T) :
    List (Sigma fun _ : PyStr => PeerResult) → (AList fun _ : PyStr => PeerResult) →
      Except PyExc Unit × AList fun _ : PyStr => PeerResult
  | [], states => (.ok (), states)
  | ⟨peerId, result⟩ :: items, states =>
      match result.state, acceptedAt.lookup peerId with
      | .aliveVerified, some receivedAt =>
          match A.sub now receivedAt with
          | .error e => (.error e, states)
          | .ok unseen =>
              if A.lt trust.maxAge unseen then
                let result := ⟨some peerId, .stale, py "no fresh heartbeat within configured window", result.sequence⟩
                markItems acceptedAt now items (states.insert peerId result)
              else markItems acceptedAt now items states
      | _, _ => markItems acceptedAt now items states

def markUnseenStale (m : PeerRegistry T) (now : T) :
    Except PyExc (AList fun _ : PyStr => PeerResult) × PeerRegistry T :=
  match markItems A trust m.acceptedAt now m.states.entries m.states with
  | (.error e, states) => (.error e, { m with states := states })
  | (.ok (), states) => (.ok states, { m with states := states })

end Receive

-- One call of a public method, with the receiver time that it takes.
inductive Request (T : Type) where
  | receive (message : Json.Dict) (now : T)
  | receiveAndTrack (message : Json.Dict) (now : T)
  | markUnseenStale (now : T)

inductive Answer where
  | result (r : PeerResult)
  | states (s : AList fun _ : PyStr => PeerResult)

section Calls

variable {T : Type} (rt : Runtime) (A : TimeArith T) (trust : Trust T)

def call (m : PeerRegistry T) : Request T → Except PyExc Answer × PeerRegistry T
  | .receive message now => (receive rt A trust m message now).map (·.map .result) id
  | .receiveAndTrack message now => (receiveAndTrack rt A trust m message now).map (·.map .result) id
  | .markUnseenStale now => (markUnseenStale A trust m now).map (·.map .states) id

def step (m : PeerRegistry T) (r : Request T) : PeerRegistry T := (call rt A trust m r).2

end Calls

end V91Core.PeerSync
