import V91Core.Effect.Driver
import V91Core.Listener.Identity
import V91Core.Listener.Polls

namespace V91Core.Listener

open V91Core.Python V91Core.Effect

section Sample

instance (rows : List Row) (row : Row) : Decidable (Conflicts rows row) :=
  inferInstanceAs (Decidable (∃ other ∈ rows, other.table = row.table ∧ other.uniqueKey = row.uniqueKey))

def sampleText : PlainText := ⟨py "a", rfl⟩

-- Everything succeeds, and the clock stands still.
def answer (now : Nat) (s : Shared) : (op : ListenerOp) → Option (Except PyExc op.Res × Shared)
  | .databaseExists => some (.ok true, s)
  | .makeInbox => some (.ok (), s)
  | .listInbox => none
  | .readFile name => (s.inbox name).map fun content => (.ok content, { s with read := content :: s.read })
  | .unlink name => (s.inbox name).map fun content => (.ok (),
      { s with inbox := Function.update s.inbox name none, removed := (name, content) :: s.removed })
  | .connect => some (.ok (), { s with connection := some [] })
  | .pragma _ => some (.ok (), s)
  | .isAudited eventId => s.connection.map fun rows => (.ok (decide (Audited (s.database ++ rows) eventId)), s)
  | .insert row => s.connection.bind fun rows =>
      if Conflicts (s.database ++ rows) row then none else some (.ok (), { s with connection := some (rows ++ [row]) })
  | .commit => s.connection.map fun rows => (.ok (), { s with database := s.database ++ rows, connection := some [] })
  | .close => some (.ok (), { s with connection := none })
  | .now => some (.ok now, { s with clock := now :: s.clock })
  | .utcNow => some (.ok sampleText, s)
  | .uuid4 =>
      if ∀ row ∈ s.database, row.table = .auditLog → row.uniqueKey ≠ sampleText.val then
        some (.ok sampleText, s)
      else none
  | .sleep => some (.ok (), s)

theorem answer_sound (now : Nat) (s : Shared) (op : ListenerOp) (r : Except PyExc op.Res) (s' : Shared)
    (h : answer now s op = some (r, s')) : Exec s op r s' ∧ Smooth s op r := by
  cases op with
  | listInbox => cases h
  | readFile name =>
      obtain ⟨content, hfile, h⟩ := Option.map_eq_some_iff.mp h
      obtain ⟨rfl, rfl⟩ := Prod.mk.inj h
      exact ⟨.readFile s name content hfile, fun _ => ⟨content, rfl⟩⟩
  | unlink name =>
      obtain ⟨content, hfile, h⟩ := Option.map_eq_some_iff.mp h
      obtain ⟨rfl, rfl⟩ := Prod.mk.inj h
      exact ⟨.unlink s name content hfile, fun _ => rfl⟩
  | isAudited eventId =>
      obtain ⟨rows, hopen, h⟩ := Option.map_eq_some_iff.mp h
      obtain ⟨rfl, rfl⟩ := Prod.mk.inj h
      exact ⟨.isAudited s eventId rows hopen, fun _ => ⟨_, rfl⟩⟩
  | insert row =>
      obtain ⟨rows, hopen, h⟩ := Option.bind_eq_some_iff.mp h
      split at h
      · cases h
      · next hunique =>
          obtain ⟨rfl, rfl⟩ := Prod.mk.inj (Option.some.inj h)
          exact ⟨.insert s row rows hopen hunique, fun _ _ _ => rfl⟩
  | commit =>
      obtain ⟨rows, hopen, h⟩ := Option.map_eq_some_iff.mp h
      obtain ⟨rfl, rfl⟩ := Prod.mk.inj h
      exact ⟨.commit s rows hopen, fun _ => rfl⟩
  | uuid4 =>
      simp only [answer] at h
      split at h
      · next hfresh =>
          obtain ⟨rfl, rfl⟩ := Prod.mk.inj (Option.some.inj h)
          exact ⟨.quiet s _ _ rfl, sampleText, rfl, hfresh⟩
      · cases h
  | connect =>
      obtain ⟨rfl, rfl⟩ := Prod.mk.inj (Option.some.inj h)
      exact ⟨.connect s, (), rfl⟩
  | close =>
      obtain ⟨rfl, rfl⟩ := Prod.mk.inj (Option.some.inj h)
      exact ⟨.close s _, (), rfl⟩
  | now =>
      obtain ⟨rfl, rfl⟩ := Prod.mk.inj (Option.some.inj h)
      exact ⟨.now s now, now, rfl⟩
  | databaseExists =>
      obtain ⟨rfl, rfl⟩ := Prod.mk.inj (Option.some.inj h)
      exact ⟨.quiet s _ _ rfl, rfl⟩
  | makeInbox | pragma | utcNow | sleep =>
      obtain ⟨rfl, rfl⟩ := Prod.mk.inj (Option.some.inj h)
      exact ⟨.quiet s _ _ rfl, _, rfl⟩

def driver (now : Nat) : Driver smoothSystem := ⟨fun _ => answer now, fun _ => answer_sound now⟩

def sampleName : PyStr := py "a.json"

def sampleContent : Bytes :=
  ("\x7b\"payload\":\x7b\"data\":\x7b\x7d,\"event_type\":\"t\",\"source\":\"s\"\x7d,\"safesignal\":\x7b\"sig\":\"" ++
    "0000000000000000000000000000000000000000000000000000000000000000" ++
    "\",\"ts\":\"2026-01-01T00:00:00Z\",\"version\":\"1\"\x7d\x7d").toUTF8.toList

-- 2026-01-01 in UTC.
def sampleNow : Nat := 63902908800000000

def sampleInbox (name : PyStr) : Option Bytes := if name = sampleName then some sampleContent else none

def sampleStart : Listeners := start sampleConfig [] 1 [] sampleInbox

theorem sampleInbox_self : sampleInbox sampleName = some sampleContent := if_pos rfl

theorem sampleInbox_only (name : PyStr) (h : sampleInbox name ≠ none) : name = sampleName := by
  by_contra hname
  exact h (if_neg hname)

theorem sample_lists : smoothSystem.exec () sampleStart.shared .listInbox (.ok [sampleName]) sampleStart.shared := by
  refine ⟨.listInbox _ _ (List.nodup_singleton _) (List.pairwise_singleton _ _) ?_, [sampleName], rfl, ?_⟩
  · intro name hname
    obtain rfl := List.mem_singleton.mp hname
    decide
  · exact fun name _ hname => List.mem_singleton.mpr (sampleInbox_only name hname)

def isReturned {α : Type} : Action α → Bool
  | .ret _ => true
  | _ => false

-- The ledger has the event, and the file is gone.
def sampleCheck (p : Listeners) : Bool :=
  (p.shared.database.map Row.table == [.ledger, .auditLog]) && isReturned (p.procs ()) &&
    p.shared.removed == [(sampleName, sampleContent)]

theorem sampleRun_ends : ∃ p, smoothSystem.Reach sampleStart p ∧ sampleCheck p = true := by
  have hexists : smoothSystem.exec () sampleStart.shared .databaseExists (.ok true) sampleStart.shared :=
    ⟨.quiet _ _ _ rfl, rfl⟩
  have hmake : smoothSystem.exec () sampleStart.shared .makeInbox (.ok ()) sampleStart.shared :=
    ⟨.quiet _ _ _ rfl, (), rfl⟩
  have hlisted : ∃ p, smoothSystem.Reach sampleStart p ∧
      ((driver sampleNow).play (List.replicate 26 ()) p).any sampleCheck = true := by
    refine ⟨_, .head (.call sampleStart () .databaseExists _ (.ok true) sampleStart.shared rfl hexists)
      (.head (.call _ () .makeInbox _ (.ok ()) sampleStart.shared rfl hmake)
        (.single (.call _ () .listInbox _ (.ok [sampleName]) sampleStart.shared rfl sample_lists))), ?_⟩
    decide +kernel
  obtain ⟨p, hreach, hplay⟩ := hlisted
  obtain ⟨q, hq, hcheck⟩ := (Option.any_eq_true _ _).mp hplay
  exact ⟨q, hreach.trans ((driver sampleNow).play_reach _ p q hq), hcheck⟩

end Sample

variable {cfg : Config} {key : Bytes} {rounds : Nat} {initial : List Row} {inbox : PyStr → Option Bytes}
variable {name : PyStr} {content : Bytes} {p p' : Listeners}

section Safety

theorem start_sound : Sound cfg key initial (start cfg key rounds initial inbox).shared :=
  ⟨⟨[], (List.append_nil _).symm, List.nodup_nil, by simp, by simp⟩, by simp [start]⟩

theorem sub_self : system.Sub system := ⟨fun _ _ _ _ _ h => h, fun _ _ h => h⟩

-- The tables are those of a log in every state, whatever fails.
theorem reach_sound (hreach : system.Reach (start cfg key rounds initial inbox) p) :
    Sound cfg key initial p.shared := by
  have hpolls : ∀ s, (within cfg key initial sub_self).Sat () (fun s' _ => 0 < rounds ∨ True ∨ Handled cfg [] [] s →
      True ∨ Handled cfg [] [] s') (polls cfg key rounds) s := fun s =>
    sat_polls (fun _ _ _ _ _ _ => .inl trivial) (.inl trivial) rounds (.inl trivial) (.inl trivial)
  have hgood : (within cfg key initial sub_self).Good (fun _ _ _ => True) (start cfg key rounds initial inbox) :=
    ⟨start_sound, fun _ => (hpolls _).mono fun _ _ _ _ => trivial⟩
  exact (hgood.reach hreach).inv

-- What the action of an audit row says about the table of the other row.
def Table.action : Table → PyStr
  | .ledger => py "ledger_accepted"
  | .quarantine => py "quarantined"
  | .hitlQueue => py "hitl_queued"
  | .auditLog => []

-- A row of one of the three tables, and the audit row that was committed with it.
inductive Pair : PyStr → List Row → Prop
  | mk (row : Row) (logId detail loggedAt : PyStr) (htable : row.table ≠ .auditLog) :
      Pair row.eventId [row, .auditLog logId row.eventId row.table.action detail loggedAt]

theorem Booking.pair (b : Booking) : Pair b.eventId (b.rows cfg) := by
  obtain ⟨content, checkedAt, eventId, entry, recordedAt, logId, loggedAt⟩ := b
  cases entry with
  | quarantined reason =>
      exact Pair.mk (.quarantine eventId reason (decodeReplace content) (cfg.rt.sha256Hex content) recordedAt) _ _ _
        (by simp [Row.table])
  | queued eventType source payloadJson confidence =>
      exact Pair.mk (.hitlQueue eventId eventType source payloadJson confidence recordedAt) _ _ _
        (by simp [Row.table])
  | accepted eventType source payloadJson confidence =>
      exact Pair.mk (.ledger eventId eventType source payloadJson (cfg.rt.sha256Hex content) recordedAt) _ _ _
        (by simp [Row.table])

-- No event is booked twice, in two tables or without its audit row.
theorem paired_rows (hreach : system.Reach (start cfg key rounds initial inbox) p) :
    ∃ pairs : List (PyStr × List Row), p.shared.database = initial ++ pairs.flatMap Prod.snd ∧
      (pairs.map Prod.fst).Nodup ∧ ∀ pair ∈ pairs, Pair pair.1 pair.2 ∧ ¬Audited initial pair.1 := by
  obtain ⟨log, hbooks⟩ := (reach_sound hreach).books
  refine ⟨log.map fun b => (b.eventId, b.rows cfg), ?_, ?_, ?_⟩
  · rw [List.flatMap_map]
    exact hbooks.rows
  · rw [List.map_map]
    exact hbooks.once
  · intro pair hpair
    obtain ⟨b, hb, rfl⟩ := List.mem_map.mp hpair
    exact ⟨b.pair, hbooks.fresh b hb⟩

theorem paired_rows_sample : ∃ p, sampleCheck p = true ∧
    ∃ pairs : List (PyStr × List Row), p.shared.database = [] ++ pairs.flatMap Prod.snd ∧
      (pairs.map Prod.fst).Nodup ∧ ∀ pair ∈ pairs, Pair pair.1 pair.2 ∧ ¬Audited [] pair.1 := by
  obtain ⟨p, hreach, hcheck⟩ := sampleRun_ends
  exact ⟨p, hcheck, paired_rows ((System.limit_sub _).reach hreach)⟩

end Safety

section Provenance

-- The content is an event that the key has signed, that was not too old or too new at
-- this time and whose payload has the right shape.
structure Accepts (cfg : Config) (key content : Bytes) (now : Nat) (fields : List (PyStr × Json)) (e : Envelope) :
    Prop where
  loads : loadsBytes cfg.rt content = .ok (.obj fields)
  envelope : readEnvelope cfg (.obj fields) = .ok e
  signed : ∃ message, signedMessageBytes cfg e.version e.ts e.payload = .ok message ∧ e.sig = cfg.rt.hmacHex key message
  recent : checkAge now e = .ok ()
  shaped : Shaped e.payload

-- The row of a payload: how sure the listener is decides about the table.
def rowOf (cfg : Config) (eventId rawHash payloadJson : PyStr) (confidence : Float) (payload : List (PyStr × Json))
    (time : PyStr) : Row :=
  let eventType := textOf payload "event_type"
  let source := textOf payload "source"
  if PyNum.lt (.float confidence) (.float cfg.hitlThreshold) then
    .hitlQueue eventId eventType source payloadJson confidence time
  else .ledger eventId eventType source payloadJson rawHash time

theorem checkAt_accepts (event : Json) (now : Nat) (h : checkAt cfg key event now = .ok (.ok ())) :
    ∃ e, readEnvelope cfg event = .ok e ∧ checkAge now e = .ok () ∧
      ∃ message, signedMessageBytes cfg e.version e.ts e.payload = .ok message ∧
        e.sig = cfg.rt.hmacHex key message := by
  unfold checkAt at h
  cases henvelope : readEnvelope cfg event with
  | error reason =>
      rw [henvelope] at h
      cases h
  | ok e =>
      rw [henvelope] at h
      obtain ⟨message, hmessage, h⟩ := (bind_eq_ok _ _ _).mp h
      obtain ⟨valid, hvalid, h⟩ := (bind_eq_ok _ _ _).mp h
      cases valid with
      | false => cases h
      | true =>
          refine ⟨e, rfl, Except.ok.inj h, message, hmessage, ?_⟩
          rw [verifySignature_eq] at hvalid
          split at hvalid
          · exact (of_decide_eq_true (Except.ok.inj hvalid)).symm
          · cases hvalid

theorem routed_row (payload : List (PyStr × Json)) (entry : Entry) (eventId rawText rawHash time : PyStr)
    (h : routed cfg payload = .ok entry) :
    ∃ confidence payloadJson, computeConfidence cfg payload = .ok confidence ∧
      dumps cfg.rt payloadStyle (.obj payload) = .ok payloadJson ∧
      entry.row eventId rawText rawHash time = rowOf cfg eventId rawHash payloadJson confidence payload time := by
  obtain ⟨confidence, hconfidence, h⟩ := (bind_eq_ok _ _ _).mp h
  obtain ⟨payloadJson, hjson, h⟩ := (bind_eq_ok _ _ _).mp h
  refine ⟨confidence, payloadJson, hconfidence, hjson, ?_⟩
  rw [← Except.ok.inj h, rowOf]
  split <;> rfl

theorem entryOf_accepts (now : Nat) (eventId : PyStr) (entry : Entry)
    (h : entryOf cfg key content now = .ok (eventId, entry)) (htrusted : entry.isTrusted = true) :
    ∃ fields e canonical, Accepts cfg key content now fields e ∧ canonicalBytes cfg.rt (.obj fields) = .ok canonical ∧
      eventId = cfg.rt.sha256Hex canonical ∧ routed cfg e.payload = .ok entry := by
  unfold entryOf at h
  cases hload : loadsBytes cfg.rt content with
  | error e =>
      rw [hload] at h
      cases e with
      | jsonDecode msg pos =>
          obtain ⟨-, rfl⟩ := Prod.mk.inj (Except.ok.inj h)
          cases htrusted
      | _ => cases h
  | ok event =>
      rw [hload] at h
      obtain ⟨canonical, hcanonical, h⟩ := (bind_eq_ok _ _ _).mp h
      obtain ⟨entry', hentry, h⟩ := (bind_eq_ok _ _ _).mp h
      obtain ⟨rfl, rfl⟩ := Prod.mk.inj (Except.ok.inj h)
      obtain ⟨verdict, hcheck, hentry⟩ := (bind_eq_ok _ _ _).mp hentry
      cases verdict with
      | error reason =>
          obtain rfl := Except.ok.inj hentry
          cases htrusted
      | ok _ =>
          obtain ⟨e, henvelope, hrecent, hsigned⟩ := checkAt_accepts event now hcheck
          obtain ⟨fields, ss, hreads⟩ := (readEnvelope_eq_ok event e).mp henvelope
          obtain rfl := hreads.event
          dsimp only at hentry
          split at hentry
          · obtain rfl := Except.ok.inj hentry
            cases htrusted
          · next payload hvalid =>
              obtain ⟨hpayload, hshaped⟩ := validatePayload_shaped _ _ hvalid
              obtain rfl := Json.obj.inj (hreads.payload.symm.trans hpayload)
              exact ⟨fields, e, canonical, ⟨hload, henvelope, hsigned, hrecent, hshaped⟩, hcanonical, rfl, hentry⟩

-- The ledger and the queue get nothing but payloads of events that were accepted.
theorem trusted_rows (hreach : system.Reach (start cfg key rounds initial inbox) p) :
    ∃ added, p.shared.database = initial ++ added ∧ ∀ row ∈ added, row.table = .ledger ∨ row.table = .hitlQueue →
      ∃ content ∈ p.shared.read, ∃ now ∈ p.shared.clock, ∃ fields e canonical confidence payloadJson time,
        Accepts cfg key content now fields e ∧ canonicalBytes cfg.rt (.obj fields) = .ok canonical ∧
          computeConfidence cfg e.payload = .ok confidence ∧
            dumps cfg.rt payloadStyle (.obj e.payload) = .ok payloadJson ∧
            row = rowOf cfg (cfg.rt.sha256Hex canonical) (cfg.rt.sha256Hex content) payloadJson confidence
              e.payload time := by
  obtain ⟨log, hbooks⟩ := (reach_sound hreach).books
  refine ⟨_, hbooks.rows, fun row hrow htable => ?_⟩
  obtain ⟨b, hb, hrow⟩ := List.mem_flatMap.mp hrow
  have hjustified := hbooks.justified b hb
  rcases List.mem_pair.mp hrow with rfl | rfl
  · have htrusted : b.entry.isTrusted = true := by
      cases hentry : b.entry with
      | quarantined reason =>
          rw [hentry] at htable
          simp [Entry.row, Row.table] at htable
      | _ => rfl
    obtain ⟨fields, e, canonical, haccepts, hcanonical, hid, hrouted⟩ :=
      entryOf_accepts b.checkedAt b.eventId b.entry hjustified.entry htrusted
    obtain ⟨confidence, payloadJson, hconfidence, hjson, hrow⟩ := routed_row e.payload b.entry b.eventId
      (decodeReplace b.content) (cfg.rt.sha256Hex b.content) b.recordedAt hrouted
    refine ⟨b.content, hjustified.read, b.checkedAt, hjustified.clock htrusted, fields, e, canonical,
      confidence, payloadJson, b.recordedAt, haccepts, hcanonical, hconfidence, hjson, ?_⟩
    rw [hrow, hid]
  · simp [Row.table] at htable

theorem trusted_rows_sample : ∃ p, sampleCheck p = true ∧ ∃ added, p.shared.database = [] ++ added ∧
    ∀ row ∈ added, row.table = .ledger ∨ row.table = .hitlQueue → ∃ content ∈ p.shared.read, ∃ now ∈ p.shared.clock,
      ∃ fields e canonical confidence payloadJson time, Accepts sampleConfig [] content now fields e ∧
        canonicalBytes sampleConfig.rt (.obj fields) = .ok canonical ∧
          computeConfidence sampleConfig e.payload = .ok confidence ∧
            dumps sampleConfig.rt payloadStyle (.obj e.payload) = .ok payloadJson ∧
              row = rowOf sampleConfig (sampleConfig.rt.sha256Hex canonical)
                (sampleConfig.rt.sha256Hex content) payloadJson
                confidence e.payload time := by
  obtain ⟨p, hreach, hcheck⟩ := sampleRun_ends
  exact ⟨p, hcheck, trusted_rows ((System.limit_sub _).reach hreach)⟩

end Provenance

section Custody

-- A file that is no longer there has been removed.
theorem inbox_or_removed (hreach : system.Reach p p') (hfile : p.shared.inbox name = some content) :
    p'.shared.inbox name = some content ∨ (name, content) ∈ p'.shared.removed := by
  induction hreach with
  | refl => exact .inl hfile
  | tail _ hstep ih =>
      cases hstep with
      | call i op k r s hcall hexec =>
          rcases ih with hfile | hremoved
          · by_cases hunlink : op = .unlink name
            · subst hunlink
              cases hexec with
              | quiet _ _ hop => cases hop
              | fails => exact .inl hfile
              | unlink _ content' hfile' =>
                  rw [hfile] at hfile'
                  obtain rfl := Option.some.inj hfile'
                  exact .inr List.mem_cons_self
            · exact .inl (here_exec op _ r s hunlink hexec hfile)
          · exact .inr ((exec_database op _ r s hexec).2 hremoved)
      | env s henv =>
          obtain ⟨inbox, rfl, hinbox⟩ := henv
          exact ih.imp_left (hinbox name content)

-- No file is lost, whatever fails: it is still there, or its event is recorded.
theorem kept_or_recorded (hreach : system.Reach (start cfg key rounds initial inbox) p) (hlater : system.Reach p p')
    (hfile : p.shared.inbox name = some content) :
    p'.shared.inbox name = some content ∨ (name, content) ∈ p'.shared.removed ∧
      Recorded cfg p'.shared.database content := by
  have hsound : Sound cfg key initial p'.shared := reach_sound (hreach.trans hlater)
  exact (inbox_or_removed hlater hfile).imp_right fun hremoved => ⟨hremoved, hsound.removed _ hremoved⟩

theorem kept_or_recorded_sample : ∃ p, sampleCheck p = true ∧ (p.shared.inbox sampleName = some sampleContent ∨
    (sampleName, sampleContent) ∈ p.shared.removed ∧ Recorded sampleConfig p.shared.database sampleContent) := by
  obtain ⟨p, hreach, hcheck⟩ := sampleRun_ends
  have hfile : sampleStart.shared.inbox sampleName = some sampleContent := sampleInbox_self
  exact ⟨p, hcheck, kept_or_recorded .refl ((System.limit_sub _).reach hreach) hfile⟩

end Custody

section Draining

end Draining

end V91Core.Listener
