import V91Core.Effect.Eval
import V91Core.Json.Str
import V91Core.Python.Codecs
import V91Core.Python.DateTime
import V91Core.Python.Format
import V91Core.Python.Hmac
import V91Core.Python.Lower
import V91Core.Python.Numeric
import V91Core.Python.Statistics

namespace V91Core.Listener

open V91Core.Python V91Core.Effect

section Tables

inductive Table where
  | ledger
  | quarantine
  | hitlQueue
  | auditLog
deriving DecidableEq

-- The rows that the listener inserts, with the columns that it gives.
inductive Row where
  | ledger (eventId eventType source payloadJson rawHash receivedAt : PyStr)
  | quarantine (eventId reason rawJson rawHash quarantinedAt : PyStr)
  | hitlQueue (eventId eventType source payloadJson : PyStr) (confidence : Float) (queuedAt : PyStr)
  | auditLog (logId eventId action detail loggedAt : PyStr)
deriving DecidableEq

namespace Row

def table : Row → Table
  | .ledger _ _ _ _ _ _ => .ledger
  | .quarantine _ _ _ _ _ => .quarantine
  | .hitlQueue _ _ _ _ _ _ => .hitlQueue
  | .auditLog _ _ _ _ _ => .auditLog

def eventId : Row → PyStr
  | .ledger eventId _ _ _ _ _ | .quarantine eventId _ _ _ _ | .hitlQueue eventId _ _ _ _ _
  | .auditLog _ eventId _ _ _ => eventId

-- The column that is `UNIQUE` in the table.
def uniqueKey : Row → PyStr
  | .auditLog logId _ _ _ _ => logId
  | row => row.eventId

def texts : Row → List PyStr
  | .ledger eventId eventType source payloadJson rawHash receivedAt =>
      [eventId, eventType, source, payloadJson, rawHash, receivedAt]
  | .quarantine eventId reason rawJson rawHash quarantinedAt => [eventId, reason, rawJson, rawHash, quarantinedAt]
  | .hitlQueue eventId eventType source payloadJson _ queuedAt => [eventId, eventType, source, payloadJson, queuedAt]
  | .auditLog logId eventId action detail loggedAt => [logId, eventId, action, detail, loggedAt]

end Row

end Tables

section Operations

-- A time or an identifier that the standard library writes.
abbrev PlainText := { text : PyStr // isAscii text = true }

-- What the listener asks of the file system, the database and the clock. `now` is the
-- number of microseconds since the day 0 in UTC.
inductive ListenerOp where
  | databaseExists
  | makeInbox
  | listInbox
  | readFile (name : PyStr)
  | unlink (name : PyStr)
  | connect
  | pragma (setting : String)
  | isAudited (eventId : PyStr)
  | insert (row : Row)
  | commit
  | close
  | now
  | utcNow
  | uuid4
  | sleep
deriving DecidableEq

abbrev ListenerOp.Res : ListenerOp → Type
  | .databaseExists => Bool
  | .listInbox => List PyStr
  | .readFile _ => Bytes
  | .isAudited _ => Bool
  | .now => Nat
  | .utcNow => PlainText
  | .uuid4 => PlainText
  | _ => Unit

abbrev Action := Prog ListenerOp ListenerOp.Res PyExc

abbrev perform (op : ListenerOp) : Action op.Res := Prog.perform op

end Operations

structure Config where
  rt : Runtime
  tables : CaseTables
  hitlThreshold : Float

variable (cfg : Config) (key : Bytes)

section SafeSignal

-- `json.dumps(value, sort_keys=True, separators=(",", ":"), ensure_ascii=False).encode("utf-8")`.
def canonicalBytes (rt : Runtime) (value : Json) : Except PyExc Bytes := do
  let text ← dumps rt .canonical value
  encodeUtf8 text

def computeSignature (payload : Bytes) : PyStr := cfg.rt.hmacHex key payload

def verifySignature (payload : Bytes) (providedSig : PyStr) : Except PyExc Bool :=
  ofOption .typeError (compareDigest (computeSignature cfg key payload) providedSig)

-- `process_file` calls it through `safesignal_check`, so that `json.dumps` runs two
-- frames below the `json.loads` that has read the event.
def signedMessageBytes (version timestamp : PyStr) (payload : List (PyStr × Json)) : Except PyExc Bytes :=
  canonicalBytes (cfg.rt.below 2) (.obj [(py "protocol", .str (py "SafeSignal")), (py "version", .str version),
    (py "ts", .str timestamp), (py "payload", .obj payload)])

-- `value.get(key)`.
def get (fields : List (PyStr × Json)) (key : String) : Json := (Json.lookup (py key) fields).getD .null

def asObject (reason : String) : Json → Except PyStr (List (PyStr × Json))
  | .obj fields => .ok fields
  | _ => .error (py reason)

-- `text.replace("Z", "+00:00")`.
def replaceZulu (text : PyStr) : PyStr := text.flatMap fun c => if c = cp 'Z' then py "+00:00" else [c]

-- What `safesignal_check` has read before it looks at the signature.
structure Envelope where
  version : PyStr
  sig : PyStr
  ts : PyStr
  payload : List (PyStr × Json)
  wall : Nat
  offset : Int

def readVersion (value : Json) : Except PyStr PyStr :=
  let unsupported := .error (py "unsupported SafeSignal version: " ++ Json.repr cfg.rt.printable value)
  match value with
  | .str version => if version = py "1" then .ok version else unsupported
  | _ => unsupported

def readSig : Json → Except PyStr PyStr
  | .str sig => if sig = [] then .error (py "safesignal.sig is empty") else .ok sig
  | _ => .error (py "safesignal.sig is empty")

def readTs : Json → Except PyStr PyStr
  | .str ts => if strip ts = [] then .error (py "safesignal.ts is required") else .ok ts
  | _ => .error (py "safesignal.ts is required")

-- The clock of the time stamp and how far it is ahead of UTC.
def readTimestamp (ts : PyStr) : Except PyStr (Nat × Int) :=
  match fromIsoFormat (replaceZulu ts) with
  | none => .error (py "invalid timestamp: " ++ Json.reprStr cfg.rt.printable ts)
  | some ⟨_, none⟩ => .error (py "timestamp must include a timezone")
  | some ⟨wall, some offset⟩ => .ok (wall, offset)

def readEnvelope (event : Json) : Except PyStr Envelope := do
  let fields ← asObject "event must be a JSON object" event
  let ss ← asObject "missing safesignal envelope" (get fields "safesignal")
  let version ← readVersion cfg (get ss "version")
  let sig ← readSig (get ss "sig")
  let ts ← readTs (get ss "ts")
  let payload ← asObject "payload must be a JSON object" (get fields "payload")
  let (wall, offset) ← readTimestamp cfg ts
  return ⟨version, sig, ts, payload, wall, offset⟩

-- `(datetime.now(UTC) - timestamp).total_seconds()`.
def ageSeconds (now : Nat) (e : Envelope) : Float :=
  nearestFloat (((now : Int) - (e.wall - e.offset) : Int) / 1000000 : ℚ)

def checkAge (now : Nat) (e : Envelope) : Except PyStr Unit :=
  let age := ageSeconds now e
  if PyNum.lt (.int 300) (.float age) then .error (py "event too old: " ++ formatFixed 0 age ++ py "s")
  else if PyNum.lt (.float age) (.int (-60)) then
    .error (py "event timestamp in future: " ++ formatFixed 0 age ++ py "s")
  else .ok ()

-- `.error reason` stands for `(False, reason)`.
def safesignalCheck (event : Json) : Action (Except PyStr Unit) := do
  match readEnvelope cfg event with
  | .error reason => return .error reason
  | .ok envelope =>
      let signedBytes ← Prog.ofExcept (signedMessageBytes cfg envelope.version envelope.ts envelope.payload)
      let valid ← Prog.ofExcept (verifySignature cfg key signedBytes envelope.sig)
      if !valid then return .error (py "signature mismatch")
      else
        let now ← perform .now
        return checkAge now envelope

end SafeSignal

section Schema

-- `sorted(REQUIRED_PAYLOAD_FIELDS)`.
def requiredPayloadFields : List String := ["data", "event_type", "source"]

def nonEmptyText (reason : String) : Json → Except PyStr Unit
  | .str text => if strip text = [] then .error (py reason) else .ok ()
  | _ => .error (py reason)

-- The payload if its shape is right.
def validatePayload (payload : Json) : Except PyStr (List (PyStr × Json)) := do
  let fields ← asObject "payload must be a JSON object" payload
  let missing := requiredPayloadFields.filter fun name => (Json.lookup (py name) fields).isNone
  if missing ≠ [] then
    .error (py "missing payload fields: " ++ Json.repr cfg.rt.printable (.arr (missing.map fun name => .str (py name))))
  else
    nonEmptyText "payload.event_type must be a non-empty string" (get fields "event_type")
    nonEmptyText "payload.source must be a non-empty string" (get fields "source")
    let _ ← asObject "payload.data must be a JSON object" (get fields "data")
    return fields

def riskyTypes : List PyStr := ["delete", "override", "force_merge", "escalate", "admin_action"].map py

-- `json.dumps(value)` and `json.dumps(value, sort_keys=True)`.
def dataStyle : Json.Style := ⟨true, false, true, true⟩

def payloadStyle : Json.Style := ⟨true, true, true, true⟩

def lowered : Json → Except PyExc PyStr
  | .str text => .ok (lower cfg.tables text)
  | _ => .error .attributeError

-- `max(0.0, min(1.0, score))`.
def clamp (score : Float) : Float :=
  let score := if PyNum.lt (.float score) (.float 1.0) then score else 1.0
  if PyNum.lt (.float 0.0) (.float score) then score else 0.0

-- A source that is missing, empty or unknown.
def isUnknown : Json → Bool
  | .str source => source = [] || source = py "unknown"
  | .null | .bool false | .arr [] | .obj [] => true
  | .int n => n = 0
  | .float x => x == 0.0
  | _ => false

-- One frame below `process_file`.
def computeConfidence (payload : List (PyStr × Json)) : Except PyExc Float := do
  let data := (Json.lookup (py "data") payload).getD (.obj [])
  let eventType ← lowered cfg ((Json.lookup (py "event_type") payload).getD (.str []))
  let score := if eventType ∈ riskyTypes then 1.0 - 0.4 else 1.0
  let text ← dumps (cfg.rt.below 1) dataStyle data
  let score := if 4096 < text.length then score - 0.2 else score
  let score := if isUnknown (get payload "source") then score - 0.3 else score
  return clamp score

end Schema

section Database

-- The parameters of a statement are passed on in UTF-8.
def bindTexts (texts : List PyStr) : Except PyExc Unit := texts.forM fun text => (encodeUtf8 text).map fun _ => ()

def insertRow (row : Row) : Action Unit := do
  Prog.ofExcept (bindTexts row.texts)
  perform (.insert row)

def withDb (body : Action α) : Action α := do
  perform .connect
  perform (.pragma "journal_mode=WAL")
  perform (.pragma "foreign_keys=ON")
  Prog.finishing (perform .close) body

def insertLedger (eventId eventType source payloadJson rawHash : PyStr) : Action Unit := do
  let now ← perform .utcNow
  insertRow (.ledger eventId eventType source payloadJson rawHash now.val)

def insertQuarantine (eventId reason rawJson rawHash : PyStr) : Action Unit := do
  let now ← perform .utcNow
  insertRow (.quarantine eventId reason rawJson rawHash now.val)

def insertHitlQueue (eventId eventType source payloadJson : PyStr) (confidence : Float) : Action Unit := do
  let now ← perform .utcNow
  insertRow (.hitlQueue eventId eventType source payloadJson confidence now.val)

def insertAuditLog (eventId action detail : PyStr) : Action Unit := do
  let logId ← perform .uuid4
  let now ← perform .utcNow
  insertRow (.auditLog logId.val eventId action detail now.val)

-- `none` means that the state of the database is unknown.
def alreadyRecorded (eventId : PyStr) : Action (Option Bool) :=
  let query : Action (Option Bool) := do
    let found ← withDb do
      Prog.ofExcept (bindTexts [eventId])
      perform (.isAudited eventId)
    return some found
  query.catching fun e => if e = .sqliteError then return none else .raise e

end Database

section Processing

-- `file_path.unlink()`, where an `OSError` is logged.
def removeInboxFile (name : PyStr) : Action Unit :=
  (perform (.unlink name)).catching fun e => if e.isOSError then return () else .raise e

def quarantineFile (name eventId reason rawText rawHash : PyStr) : Action Unit := do
  let recorded ← (withDb do
    insertQuarantine eventId reason rawText rawHash
    insertAuditLog eventId (py "quarantined") reason
    perform .commit).attempt
  match recorded with
  | .ok () => removeInboxFile name
  | .error e => if e = .sqliteError then return () else .raise e

-- The check before an event is recorded: the file of one that is recorded is removed.
def recordOnce (name eventId : PyStr) (record : Action Unit) : Action Unit := do
  match ← alreadyRecorded eventId with
  | none => return ()
  | some true => removeInboxFile name
  | some false => record

-- `payload[key]` of a payload in which this is a string.
def textOf (payload : List (PyStr × Json)) (key : String) : PyStr :=
  match get payload key with
  | .str text => text
  | _ => []

def bookEvent (eventId rawHash : PyStr) (payload : List (PyStr × Json)) : Action Unit := do
  let confidence ← Prog.ofExcept (computeConfidence cfg payload)
  let eventType := textOf payload "event_type"
  let source := textOf payload "source"
  let payloadJson ← Prog.ofExcept (dumps cfg.rt payloadStyle (.obj payload))
  withDb do
    if PyNum.lt (.float confidence) (.float cfg.hitlThreshold) then
      insertHitlQueue eventId eventType source payloadJson confidence
      insertAuditLog eventId (py "hitl_queued")
        (py "confidence=" ++ formatFixed 3 confidence ++ py " threshold=" ++ Json.reprFloat cfg.hitlThreshold)
    else
      insertLedger eventId eventType source payloadJson rawHash
      insertAuditLog eventId (py "ledger_accepted") (py "confidence=" ++ formatFixed 3 confidence)
    perform .commit

-- What is done with an event that is not recorded yet.
def processEvent (name : PyStr) (raw : Bytes) (event : Json) (eventId : PyStr) : Action Unit := do
  let rawHash := cfg.rt.sha256Hex raw
  let quarantine (reason : PyStr) : Action Unit := quarantineFile name eventId reason (decodeReplace raw) rawHash
  match ← safesignalCheck cfg key event with
  | .error reason => quarantine (py "safesignal_fail: " ++ reason)
  | .ok () =>
      match event with
      | .obj fields =>
          match validatePayload cfg (get fields "payload") with
          | .error reason => quarantine (py "schema_error: " ++ reason)
          | .ok payload => do
              bookEvent cfg eventId rawHash payload
              removeInboxFile name
      | _ => quarantine (py "event_not_object")

def processFile (name : PyStr) : Action Unit := do
  let raw ← perform (.readFile name)
  match loadsBytes cfg.rt raw with
  | .error (.jsonDecode msg pos) =>
      -- Malformed input is identified by the hash of its bytes.
      let rawHash := cfg.rt.sha256Hex raw
      let reason := py "json_parse_error: " ++ jsonDecodeText ((decodeDetected raw).getD []) msg pos
      recordOnce name rawHash (quarantineFile name rawHash reason (decodeReplace raw) rawHash)
  | .error e => .raise e
  | .ok event =>
      let canonical ← Prog.ofExcept (canonicalBytes cfg.rt event)
      let eventId := cfg.rt.sha256Hex canonical
      recordOnce name eventId (processEvent cfg key name raw event eventId)

-- An exception of one file does not keep the others from being processed.
def watchInbox : Action Unit := do
  perform .makeInbox
  let names ← perform .listInbox
  let _ ← Prog.each (fun name => (processFile cfg key name).catching fun _ => return ()) names
  return ()

-- The polls of `main`.
def poll : Action Unit := do
  let found ← perform .databaseExists
  if found then (watchInbox cfg key).catching fun _ => return ()
  perform .sleep

def polls : Nat → Action Unit
  | 0 => return ()
  | n + 1 => do
      poll cfg key
      polls n

end Processing

end V91Core.Listener
