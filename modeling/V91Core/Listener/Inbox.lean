import V91Core.Effect.Within
import V91Core.Listener.Model

namespace V91Core.Listener

open V91Core.Python V91Core.Effect

section State

-- A row of the audit log says that the event is recorded.
def Audited (rows : List Row) (eventId : PyStr) : Prop := ∃ row ∈ rows, row.table = .auditLog ∧ row.eventId = eventId

instance (rows : List Row) (eventId : PyStr) : Decidable (Audited rows eventId) :=
  inferInstanceAs (Decidable (∃ row ∈ rows, row.table = .auditLog ∧ row.eventId = eventId))

-- Another row of the table has the same value in its `UNIQUE` column.
def Conflicts (rows : List Row) (row : Row) : Prop :=
  ∃ other ∈ rows, other.table = row.table ∧ other.uniqueKey = row.uniqueKey

-- `connection` holds the rows of the open transaction. `clock`, `read` and `removed`
-- record what has happened: the times that were read, the contents that were read
-- and the files that were removed. The listener does not look at them.
structure Shared where
  database : List Row
  connection : Option (List Row)
  inbox : PyStr → Option Bytes
  clock : List Nat
  read : List Bytes
  removed : List (PyStr × Bytes)

def isJsonName (name : PyStr) : Bool := py ".json" <:+ name

-- The operations that leave everything as it is.
def ListenerOp.quiet : ListenerOp → Bool
  | .databaseExists | .makeInbox | .pragma _ | .utcNow | .uuid4 | .sleep => true
  | _ => false

-- Every operation may fail and then changes nothing, but a transaction that is not
-- committed when its connection is closed is lost.
inductive Exec : Shared → (op : ListenerOp) → Except PyExc op.Res → Shared → Prop
  | quiet (s : Shared) (op : ListenerOp) (r : Except PyExc op.Res) (hop : op.quiet = true) : Exec s op r s
  | fails (s : Shared) (op : ListenerOp) (e : PyExc) (hop : op ≠ .close) : Exec s op (.error e) s
  | listInbox (s : Shared) (names : List PyStr) (hdistinct : names.Nodup)
      (hsorted : names.Pairwise fun a b => strLe a b = true)
      (hlisted : ∀ name ∈ names, isJsonName name = true ∧ (s.inbox name).isSome = true) :
      Exec s .listInbox (.ok names) s
  | readFile (s : Shared) (name : PyStr) (content : Bytes) (hfile : s.inbox name = some content) :
      Exec s (.readFile name) (.ok content) { s with read := content :: s.read }
  | unlink (s : Shared) (name : PyStr) (content : Bytes) (hfile : s.inbox name = some content) :
      Exec s (.unlink name) (.ok ())
        { s with inbox := Function.update s.inbox name none, removed := (name, content) :: s.removed }
  | connect (s : Shared) : Exec s .connect (.ok ()) { s with connection := some [] }
  | isAudited (s : Shared) (eventId : PyStr) (rows : List Row) (hopen : s.connection = some rows) :
      Exec s (.isAudited eventId) (.ok (decide (Audited (s.database ++ rows) eventId))) s
  | insert (s : Shared) (row : Row) (rows : List Row) (hopen : s.connection = some rows)
      (hunique : ¬Conflicts (s.database ++ rows) row) :
      Exec s (.insert row) (.ok ()) { s with connection := some (rows ++ [row]) }
  | commit (s : Shared) (rows : List Row) (hopen : s.connection = some rows) :
      Exec s .commit (.ok ()) { s with database := s.database ++ rows, connection := some [] }
  | close (s : Shared) (r : Except PyExc Unit) : Exec s .close r { s with connection := none }
  | now (s : Shared) (t : Nat) : Exec s .now (.ok t) { s with clock := t :: s.clock }

-- Files arrive, each as a whole and under a name that is free.
def Arrival (s s' : Shared) : Prop :=
  ∃ inbox, s' = { s with inbox } ∧ ∀ name content, s.inbox name = some content → inbox name = some content

def system : System Unit Shared ListenerOp ListenerOp.Res PyExc where
  exec _ := Exec
  env := Arrival

-- The operation does not fail, if the state allows it, and finds every file.
def Smooth (s : Shared) : (op : ListenerOp) → Except PyExc op.Res → Prop
  | .databaseExists, r => r = .ok true
  | .listInbox, r => ∃ names, r = .ok names ∧ ∀ name, isJsonName name = true → s.inbox name ≠ none → name ∈ names
  | .readFile name, r => s.inbox name ≠ none → ∃ content, r = .ok content
  | .unlink name, r => s.inbox name ≠ none → r = .ok ()
  | .isAudited _, r => s.connection ≠ none → ∃ found, r = .ok found
  | .insert row, r => ∀ rows, s.connection = some rows → ¬Conflicts (s.database ++ rows) row → r = .ok ()
  | .commit, r => s.connection ≠ none → r = .ok ()
  | .uuid4, r => ∃ u, r = .ok u ∧ ∀ row ∈ s.database, row.table = .auditLog → row.uniqueKey ≠ u.val
  | _, r => ∃ b, r = .ok b

def smoothSystem : System Unit Shared ListenerOp ListenerOp.Res PyExc := system.limit fun _ => Smooth

abbrev Listeners := Pool Unit Shared ListenerOp ListenerOp.Res PyExc Unit

-- One listener with these rows in the database and these files in the inbox.
def start (cfg : Config) (key : Bytes) (rounds : Nat) (database : List Row) (inbox : PyStr → Option Bytes) :
    Listeners :=
  ⟨⟨database, none, inbox, [], [], []⟩, fun _ => polls cfg key rounds⟩

end State

variable (cfg : Config) (key : Bytes)

section Purpose

-- What comes of an event.
inductive Entry where
  | quarantined (reason : PyStr)
  | queued (eventType source payloadJson : PyStr) (confidence : Float)
  | accepted (eventType source payloadJson : PyStr) (confidence : Float)

namespace Entry

-- The payload has passed every check.
def isTrusted : Entry → Bool
  | .quarantined _ => false
  | _ => true

def row (eventId rawText rawHash time : PyStr) : Entry → Row
  | .quarantined reason => .quarantine eventId reason rawText rawHash time
  | .queued eventType source payloadJson confidence => .hitlQueue eventId eventType source payloadJson confidence time
  | .accepted eventType source payloadJson _ => .ledger eventId eventType source payloadJson rawHash time

def action : Entry → PyStr
  | .quarantined _ => py "quarantined"
  | .queued _ _ _ _ => py "hitl_queued"
  | .accepted _ _ _ _ => py "ledger_accepted"

def detail (threshold : Float) : Entry → PyStr
  | .quarantined reason => reason
  | .queued _ _ _ confidence =>
      py "confidence=" ++ formatFixed 3 confidence ++ py " threshold=" ++ Json.reprFloat threshold
  | .accepted _ _ _ confidence => py "confidence=" ++ formatFixed 3 confidence

end Entry

-- The verdict of `safesignal_check` when the clock shows this time.
def checkAt (event : Json) (now : Nat) : Except PyExc (Except PyStr Unit) :=
  match readEnvelope cfg event with
  | .error reason => .ok (.error reason)
  | .ok envelope => do
      let signedBytes ← signedMessageBytes cfg envelope.version envelope.ts envelope.payload
      let valid ← verifySignature cfg key signedBytes envelope.sig
      return if valid then checkAge now envelope else .error (py "signature mismatch")

-- Where a payload is booked that has passed every check.
def routed (payload : List (PyStr × Json)) : Except PyExc Entry := do
  let confidence ← computeConfidence cfg payload
  let payloadJson ← dumps cfg.rt payloadStyle (.obj payload)
  let eventType := textOf payload "event_type"
  let source := textOf payload "source"
  return if PyNum.lt (.float confidence) (.float cfg.hitlThreshold) then .queued eventType source payloadJson confidence
    else .accepted eventType source payloadJson confidence

def entryOfEvent (event : Json) (now : Nat) : Except PyExc Entry := do
  match ← checkAt cfg key event now with
  | .error reason => return .quarantined (py "safesignal_fail: " ++ reason)
  | .ok () =>
      match event with
      | .obj fields =>
          match validatePayload cfg (get fields "payload") with
          | .error reason => return .quarantined (py "schema_error: " ++ reason)
          | .ok payload => routed cfg payload
      | _ => return .quarantined (py "event_not_object")

-- The reason for which malformed content is quarantined.
def parseReason (content : Bytes) (msg : String) (pos : Nat) : PyStr :=
  py "json_parse_error: " ++ jsonDecodeText ((decodeDetected content).getD []) msg pos

-- A listener that never fails: under which identifier it records the content of a
-- file at this time, and as what.
def entryOf (content : Bytes) (now : Nat) : Except PyExc (PyStr × Entry) :=
  match loadsBytes cfg.rt content with
  | .error (.jsonDecode msg pos) => .ok (cfg.rt.sha256Hex content, .quarantined (parseReason content msg pos))
  | .error e => .error e
  | .ok event => do
      let canonical ← canonicalBytes cfg.rt event
      let entry ← entryOfEvent cfg key event now
      return (cfg.rt.sha256Hex canonical, entry)

-- An event that has been recorded: the file it came in, the time it was checked
-- against, and what the two rows say.
structure Booking where
  content : Bytes
  checkedAt : Nat
  eventId : PyStr
  entry : Entry
  recordedAt : PyStr
  logId : PyStr
  loggedAt : PyStr

def Booking.rows (b : Booking) : List Row :=
  [b.entry.row b.eventId (decodeReplace b.content) (cfg.rt.sha256Hex b.content) b.recordedAt,
    .auditLog b.logId b.eventId b.entry.action (b.entry.detail cfg.hitlThreshold) b.loggedAt]

-- The booking is what the content came to at a time that the clock has shown.
structure Booking.Justified (s : Shared) (b : Booking) : Prop where
  read : b.content ∈ s.read
  entry : entryOf cfg key b.content b.checkedAt = .ok (b.eventId, b.entry)
  clock : b.entry.isTrusted = true → b.checkedAt ∈ s.clock

-- The tables hold the rows from before and those of a log of bookings in which no
-- event is recorded twice.
structure Books (initial : List Row) (s : Shared) (log : List Booking) : Prop where
  rows : s.database = initial ++ log.flatMap (Booking.rows cfg)
  once : (log.map Booking.eventId).Nodup
  fresh : ∀ b ∈ log, ¬Audited initial b.eventId
  justified : ∀ b ∈ log, b.Justified cfg key s

-- The identifier under which the content of a file is recorded.
def eventIdOf (content : Bytes) : Except PyExc PyStr :=
  match loadsBytes cfg.rt content with
  | .error (.jsonDecode _ _) => .ok (cfg.rt.sha256Hex content)
  | .error e => .error e
  | .ok event => (canonicalBytes cfg.rt event).map cfg.rt.sha256Hex

def Recorded (rows : List Row) (content : Bytes) : Prop :=
  ∃ eventId, eventIdOf cfg content = .ok eventId ∧ Audited rows eventId

end Purpose

end V91Core.Listener
