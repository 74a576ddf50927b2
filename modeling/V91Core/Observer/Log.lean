import V91Core.Audit.Append
import V91Core.Effect.Answers
import V91Core.Json.Chars
import V91Core.Json.Objects
import V91Core.Json.Reread
import V91Core.Observer.Snapshot
import V91Core.Python.JsonForm
import V91Core.Python.ReadText

namespace V91Core.Observer

open V91Core.Python V91Core.Effect V91Core.Audit

section Writer

variable (rt : Runtime)

-- `append_audit` of an event that may hold every value that `json.dumps` takes.
def eventLine (event : PyData) : Except PyExc Bytes := do
  let text ← event.dumps rt eventStyle
  encodeUtf8 (text ++ [cp '\n'])

def appendAudit (pid : Nat) (lockPath : PyStr) (event : PyData) : Action Unit :=
  appendLine pid lockPath (eventLine rt event)

end Writer

section Line

variable (rt : Runtime)

-- The line of an event is ASCII, and it is read as an object.
structure EventText (text : PyStr) : Prop where
  line : IsLine text
  ascii : isAscii (text ++ [cp '\n']) = true
  brace : text.head? = some (cp '{')
  object : ∃ fields, loadsText rt (text ++ [cp '\n']) = .ok (.obj fields)

theorem eventLine_eq_ok (event : List (PyData × PyData)) (line : Bytes)
    (h : eventLine rt (.dict event) = .ok line) :
    ∃ text, EventText rt text ∧ utf8Encode (text ++ [cp '\n']) = some line := by
  obtain ⟨text, htext, hline⟩ := (bind_eq_ok _ _ _).mp h
  rw [encodeUtf8_eq_ok] at hline
  have hwritable := PyData.writable_of_dumpsAt eventStyle rfl rfl rt.nesting (.dict event) text htext
  obtain ⟨⟨sorted, hsorted⟩, -, -⟩ := id hwritable
  have hencode : Json.encode { eventStyle with sortKeys := false } rt.nesting
      (PyData.sortedJson (.dict event)) = .ok text := by
    rwa [PyData.dumps, PyData.dumpsAt_sortedJson eventStyle rfl _ _ hwritable, mapError_eq_ok] at htext
  have hreads := Json.encode_reread _ rfl rfl _ _ _ hencode
  have hloads := Json.loads_readsAs rt.nesting text [] [cp '\n'] _ hreads (by simp)
    (by simpa using (by decide : Json.isWs (cp '\n') = true))
  rw [List.nil_append] at hloads
  rw [PyData.sortedJson_dict event sorted hsorted] at hencode hloads
  obtain ⟨rest, hstart⟩ := Json.encode_obj_start _ _ _ _ hencode
  refine ⟨text, ⟨⟨by simp [hstart], Json.encode_printable _ _ _ _ hencode⟩, ?_, by simp [hstart], _,
    (loadsText_eq_ok _ _ _).mpr hloads⟩, hline⟩
  rw [isAscii, List.all_append, Bool.and_eq_true]
  refine ⟨List.all_eq_true.mpr ?_, by decide⟩
  exact Json.encode_ascii_chars (fun c => c.isAscii = true) (fun c hc => decide_eq_true hc) _ rfl _ _ text hencode

theorem strip_of_brace (s : PyStr) (h : s.head? = some (cp '{')) : strip s ≠ [] := by
  obtain ⟨rest, rfl⟩ := List.head?_eq_some_iff.mp h
  exact strip_brace_ne_nil rest

end Line

section History

variable (rt : Runtime) (lockPath : PyStr)

abbrev AuditStep := Answered AuditOp AuditOp.Res PyExc

-- A call of `append_audit`: its steps, how it ended, and what it has added to the log.
structure Call where
  pid : Nat
  event : List (PyData × PyData)
  steps : List AuditStep
  outcome : Except PyExc Unit
  added : Bytes

-- A write that fails may leave the start of its line, which closing the file may complete.
structure Call.Ran (call : Call) : Prop where
  runs : (appendAudit rt call.pid lockPath (.dict call.event)).Runs Prog.Answers call.steps call.outcome
  written : ∀ line, ⟨.writeLine line, .ok ()⟩ ∈ call.steps → call.added = line
  torn : ∀ line e, ⟨.writeLine line, .error e⟩ ∈ call.steps → call.added <+: line
  untouched : (∀ line r, ⟨.writeLine line, r⟩ ∉ call.steps) → call.added = []

-- What calls that follow each other leave in a log that was empty.
def written (calls : List Call) : Bytes := calls.flatMap Call.added

-- A call that raises adds nothing, and the line of one that returns is not nested more
-- deeply than the reader goes.
def Call.Clean (reader : Runtime) (call : Call) : Prop :=
  match call.outcome with
  | .ok _ => Readable reader call.added
  | .error _ => call.added = []

def successful (calls : List Call) : List Call := calls.filter fun call => call.outcome.isOk

-- What a call that succeeds has added.
theorem added_of_ok (call : Call) (hran : call.Ran rt lockPath) (hout : call.outcome = .ok ()) :
    eventLine rt (.dict call.event) = .ok call.added := by
  have hruns := hran.runs
  rw [hout] at hruns
  obtain ⟨line, hline, step, hmem, hans⟩ := line_of_appendLine _ _ _ _ hruns
  rw [(Prog.answers_iff _ _ _).mp hans] at hmem
  rw [hline, hran.written line hmem]

theorem appendAudit_emits (pid : Nat) (event : List (PyData × PyData)) :
    (appendAudit rt pid lockPath (.dict event)).Emits Prog.Answers
      fun step : AuditStep => ∀ line r, step = ⟨.writeLine line, r⟩ → eventLine rt (.dict event) = .ok line := by
  apply appendLine_emits
  · intro step op r hother hans line r' hstep
    rw [(Prog.answers_iff _ _ _).mp hans] at hstep
    exact absurd (congrArg Answered.op hstep) (hother line)
  · intro step line r hline hans line' r' hstep
    rw [(Prog.answers_iff _ _ _).mp hans] at hstep
    rw [hline, AuditOp.writeLine.inj (congrArg Answered.op hstep)]

theorem appendLine_quiet (pid : Nat) (line : Bytes) : (appendLine pid lockPath (.ok line)).ReturnsUnless Prog.Answers
    fun step : AuditStep => Fails step.op step.answer := by
  apply appendLine_returnsUnless
  intro step op r hans
  rw [(Prog.answers_iff _ _ _).mp hans]

-- What any call has added is the start of its line.
theorem added_prefix (call : Call) (hran : call.Ran rt lockPath) (hne : call.added ≠ []) :
    ∃ line, eventLine rt (.dict call.event) = .ok line ∧ call.added <+: line := by
  obtain ⟨line, r, hmem⟩ : ∃ line r, (⟨.writeLine line, r⟩ : AuditStep) ∈ call.steps := by
    by_contra hnone
    simp only [not_exists] at hnone
    exact hne (hran.untouched hnone)
  refine ⟨line, appendAudit_emits rt lockPath _ _ _ _ hran.runs _ hmem line r rfl, ?_⟩
  cases r with
  | ok u => exact (hran.written line hmem) ▸ List.prefix_rfl
  | error e => exact hran.torn line e hmem

-- A run that ends well is a call that has added its line.
theorem ran_of_ok (pid : Nat) (event : List (PyData × PyData)) (steps : List AuditStep) (line : Bytes)
    (hruns : (appendAudit rt pid lockPath (.dict event)).Runs Prog.Answers steps (.ok ()))
    (hline : eventLine rt (.dict event) = .ok line) : Call.Ran rt lockPath ⟨pid, event, steps, .ok (), line⟩ := by
  have hwritten : ∀ bytes r, (⟨.writeLine bytes, r⟩ : AuditStep) ∈ steps → line = bytes := by
    intro bytes r hmem
    have hbytes := appendAudit_emits rt lockPath pid event _ _ hruns _ hmem bytes r rfl
    exact Except.ok.inj (hline.symm.trans hbytes)
  refine ⟨hruns, fun bytes => hwritten bytes _, ?_, ?_⟩
  · intro bytes e hmem
    exact (hwritten bytes _ hmem) ▸ List.prefix_rfl
  · intro hnone
    obtain ⟨bytes, -, step, hmem, hans⟩ := line_of_appendLine _ _ _ _ hruns
    rw [(Prog.answers_iff _ _ _).mp hans] at hmem
    exact absurd hmem (hnone bytes _)

end History

section Counting

variable (rt : Runtime) (lockPath : PyStr) (reader : Runtime)

-- Every line of the log is the object of a successful call.
structure Tracks (count : Nat) (content : Bytes) : Prop where
  decoded : (readLines content).error = false
  ended : openLine (some content) = []
  lines : (readLines content).lines.length = count
  parses : ∀ line ∈ (readLines content).lines, strip line ≠ [] ∧ ∃ fields, loadsText reader line = .ok (.obj fields)

theorem tracks_empty : Tracks reader 0 [] := by
  refine ⟨by decide, by decide, by decide, ?_⟩
  intro line hline
  cases hline

-- The reader's room suffices for a line that does not exhaust it.
theorem loadsText_room (line : PyStr) (j : Json) (h : loadsText rt line = .ok j)
    (hroom : loadsText reader line ≠ .error .recursionError) : loadsText reader line = .ok j := by
  refine (loadsText_eq_ok _ _ _).mpr (Json.loads_room _ _ line j ((loadsText_eq_ok _ _ _).mp h) fun hdeep => hroom ?_)
  rw [loadsText, hdeep]

theorem readLines_event (content line : Bytes) (text : PyStr) (htext : EventText rt text)
    (hbytes : utf8Encode (text ++ [cp '\n']) = some line) (hread : (readLines content).error = false)
    (hopen : openLine (some content) = []) :
    readLines (content ++ line) = ⟨(readLines content).lines ++ [text ++ [cp '\n']], false⟩ ∧
      openLine (some (content ++ line)) = [] :=
  readLines_append_line content line text htext.line hread hopen hbytes

-- What is readable of a line that stands alone is readable behind other lines.
theorem readable_event (line : Bytes) (text : PyStr) (htext : EventText rt text)
    (hbytes : utf8Encode (text ++ [cp '\n']) = some line) :
    Readable reader line ↔ loadsText reader (text ++ [cp '\n']) ≠ .error .recursionError := by
  obtain ⟨hread, -⟩ := readLines_event rt [] line text htext hbytes (by decide) (by decide)
  have hlines : (readLines line).lines = [text ++ [cp '\n']] := by
    rw [← List.nil_append line, hread]
    rfl
  have herror : (readLines line).error = false := by
    rw [← List.nil_append line, hread]
  have hbrace : (text ++ [cp '\n']).head? = some (cp '{') := by
    rw [List.head?_append, htext.brace]
    rfl
  rw [Readable, herror, Shallow, hlines, List.forall_mem_singleton]
  exact ⟨fun h => h.2 (strip_of_brace _ hbrace), fun h => ⟨rfl, fun _ => h⟩⟩

theorem Tracks.append {count : Nat} {content : Bytes} (h : Tracks reader count content)
    (event : List (PyData × PyData)) (line : Bytes) (hline : eventLine rt (.dict event) = .ok line)
    (hreadable : Readable reader line) : Tracks reader (count + 1) (content ++ line) := by
  obtain ⟨text, htext, hbytes⟩ := eventLine_eq_ok rt event line hline
  obtain ⟨hread, hended⟩ := readLines_event rt content line text htext hbytes h.decoded h.ended
  obtain ⟨fields, hobject⟩ := htext.object
  refine ⟨by rw [hread], hended, ?_, ?_⟩
  · rw [hread, List.length_append, h.lines]
    rfl
  · rw [hread]
    intro l hl
    rcases List.mem_append.mp hl with hl | hl
    · exact h.parses l hl
    · rw [List.mem_singleton.mp hl]
      refine ⟨strip_of_brace _ (by rw [List.head?_append, htext.brace]; rfl), fields, ?_⟩
      exact loadsText_room rt reader _ _ hobject ((readable_event rt reader line text htext hbytes).mp hreadable)

-- One more call.
theorem Tracks.call {calls : List Call} (h : Tracks reader (successful calls).length (written calls)) (call : Call)
    (hran : call.Ran rt lockPath) (hclean : call.Clean reader) :
    Tracks reader (successful (calls ++ [call])).length (written (calls ++ [call])) := by
  have hwritten : written (calls ++ [call]) = written calls ++ call.added := by simp [written]
  unfold Call.Clean at hclean
  unfold successful at h ⊢
  rw [hwritten, List.filter_append, List.length_append]
  cases hout : call.outcome with
  | error e =>
      rw [hout] at hclean
      rw [hclean, List.append_nil, List.filter_cons_of_neg (by rw [hout]; exact Bool.false_ne_true)]
      exact h
  | ok u =>
      rw [hout] at hclean
      rw [List.filter_cons_of_pos (by rw [hout]; rfl)]
      exact h.append rt reader call.event call.added (added_of_ok rt lockPath call hran hout) hclean

theorem written_tracks (calls : List Call) (hran : ∀ call ∈ calls, ∃ rt lockPath, call.Ran rt lockPath)
    (hclean : ∀ call ∈ calls, call.Clean reader) : Tracks reader (successful calls).length (written calls) := by
  induction calls using List.reverseRecOn with
  | nil => exact tracks_empty reader
  | append_singleton calls call ih =>
      obtain ⟨hcalls, hcall⟩ := List.forall_mem_append.mp hclean
      obtain ⟨hbefore, hlast⟩ := List.forall_mem_append.mp hran
      obtain ⟨rt, lockPath, hran⟩ := hlast call List.mem_cons_self
      exact (ih hbefore hcalls).call rt lockPath reader call hran (hcall call List.mem_cons_self)

-- A snapshot counts the successful calls and nothing else.
def CountedExactly (now : PyStr) (counts : QueueCounts) (calls : List Call) : Prop :=
  ∃ data, snapshot reader now counts (.ok ⟨written calls, none⟩) = .ok data ∧
    data.audit.events = (successful calls).length ∧ data.audit.parseErrors = 0

-- Nothing but the objects of the successful calls is counted.
theorem Tracks.snapshot {count : Nat} {content : Bytes} (h : Tracks reader count content) (now : PyStr)
    (counts : QueueCounts) : ∃ data, snapshot reader now counts (.ok ⟨content, none⟩) = .ok data ∧
      data.audit.events = count ∧ data.audit.parseErrors = 0 := by
  have hshallow : Shallow reader (readLines content).lines := by
    intro line hline _ hdeep
    obtain ⟨-, fields, hloads⟩ := h.parses line hline
    rw [hloads] at hdeep
    cases hdeep
  have hparsed : ∀ line ∈ (readLines content).lines, (parsed reader line).isSome := by
    intro line hline
    obtain ⟨-, fields, hloads⟩ := h.parses line hline
    rw [parsed, hloads]
    rfl
  have hblank : nonBlank (readLines content).lines = (readLines content).lines := by
    refine List.filter_eq_self.mpr fun line hline => ?_
    exact decide_eq_true (h.parses line hline).1
  refine ⟨_, (bind_eq_ok _ _ _).mpr ⟨_, (inspectRead_eq_ok reader content _).mpr ⟨⟨h.decoded, hshallow⟩, rfl⟩, rfl⟩,
    ?_, ?_⟩
  · have hlength : (objects reader (readLines content).lines).length = (readLines content).lines.length := by
      rw [objects, hblank, List.length_filterMap_eq_countP]
      exact List.countP_eq_length.mpr hparsed
    exact (Nat.zero_add _).trans (hlength.trans h.lines)
  · refine (Nat.zero_add _).trans ?_
    rw [hblank]
    refine List.countP_eq_zero.mpr fun line hline hnone => ?_
    have hsome := hparsed line hline
    rw [Option.isNone_iff_eq_none.mp hnone] at hsome
    cases hsome

-- Each line is an object or an error.
theorem objects_add_errors (lines : List PyStr) (h : ∀ line ∈ lines, strip line ≠ []) :
    (objects reader lines).length + (nonBlank lines).countP (fun line => (parsed reader line).isNone) =
      lines.length := by
  have hblank : nonBlank lines = lines := List.filter_eq_self.mpr fun line hline => decide_eq_true (h line hline)
  have hcount : ∀ lines : List PyStr, lines.countP (fun line => (parsed reader line).isSome) +
      lines.countP (fun line => (parsed reader line).isNone) = lines.length := by
    intro lines
    induction lines with
    | nil => rfl
    | cons line lines ih =>
        simp only [List.countP_cons, List.length_cons]
        cases parsed reader line <;> simp <;> omega
  rw [objects, hblank, List.length_filterMap_eq_countP]
  exact hcount lines

-- A call after which the log is still counted exactly was clean.
theorem clean_of_counted (now : PyStr) (counts : QueueCounts) (calls : List Call) (call : Call)
    (htracks : Tracks reader (successful calls).length (written calls)) (hran : call.Ran rt lockPath)
    (h : CountedExactly reader now counts (calls ++ [call])) : call.Clean reader := by
  have hwritten : written (calls ++ [call]) = written calls ++ call.added := by simp [written]
  obtain ⟨data, hdata, hevents, herrors⟩ := h
  obtain ⟨audit, haudit, hsnapshot⟩ := (bind_eq_ok _ _ _).mp hdata
  obtain ⟨⟨-, hshallow⟩, rfl⟩ := (inspectRead_eq_ok reader _ audit).mp haudit
  obtain rfl := Except.ok.inj hsnapshot
  rw [hwritten] at hshallow hevents herrors
  unfold Call.Clean
  cases hout : call.outcome with
  | ok u =>
      obtain ⟨text, htext, hbytes⟩ := eventLine_eq_ok rt _ _ (added_of_ok rt lockPath call hran hout)
      obtain ⟨hread, -⟩ := readLines_event rt _ _ text htext hbytes htracks.decoded htracks.ended
      refine (readable_event rt reader call.added text htext hbytes).mpr (hshallow _ (by rw [hread]; simp) ?_)
      exact strip_of_brace _ (by rw [List.head?_append, htext.brace]; rfl)
  | error e =>
      by_contra hne
      obtain ⟨line, hline, hprefix⟩ := added_prefix rt lockPath call hran hne
      obtain ⟨text, htext, hbytes⟩ := eventLine_eq_ok rt _ _ hline
      obtain ⟨p, q, hsplit, hp⟩ := ascii_prefix _ htext.ascii line call.added hbytes hprefix
      have hpne : p ≠ [] := by
        rintro rfl
        exact hne (utf8Decode_eq_nil _ hp)
      have hread := readLines_torn text p q htext.line hsplit hpne _ _ htracks.decoded htracks.ended hp
      -- one line more than there are successful calls
      have hbrace : p.head? = some (cp '{') := by
        have hhead := congrArg List.head? hsplit
        rwa [List.head?_append_of_ne_nil _ htext.line.ne_nil, htext.brace, List.head?_append_of_ne_nil _ hpne,
          eq_comm] at hhead
      have hsum := objects_add_errors reader (readLines (written calls ++ call.added)).lines fun l hl => by
        rw [hread] at hl
        rcases List.mem_append.mp hl with hl | hl
        · exact (htracks.parses l hl).1
        · rw [List.mem_singleton.mp hl]
          exact strip_of_brace p hbrace
      have hcount : (successful (calls ++ [call])).length = (successful calls).length := by
        simp [successful, hout, Except.isOk, Except.toBool]
      have hlength : (readLines (written calls ++ call.added)).lines.length = (successful calls).length + 1 := by
        rw [hread, List.length_append, htracks.lines]
        rfl
      simp only [Summary.add, Summary.empty] at hevents herrors
      omega

theorem counted_iff_clean (now : PyStr) (counts : QueueCounts) (calls : List Call)
    (hran : ∀ call ∈ calls, ∃ rt lockPath, call.Ran rt lockPath) :
    (∀ before, before <+: calls → CountedExactly reader now counts before) ↔ ∀ call ∈ calls, call.Clean reader := by
  constructor
  · intro h
    induction calls using List.reverseRecOn with
    | nil => simp
    | append_singleton calls call ih =>
        obtain ⟨hbefore, hlast⟩ := List.forall_mem_append.mp hran
        have hclean := ih hbefore fun before hinitial => h before (hinitial.trans (List.prefix_append _ _))
        obtain ⟨rt, lockPath, hran⟩ := hlast call List.mem_cons_self
        have htracks := written_tracks reader calls hbefore hclean
        refine List.forall_mem_append.mpr ⟨hclean, List.forall_mem_singleton.mpr ?_⟩
        exact clean_of_counted rt lockPath reader now counts calls call htracks hran (h _ List.prefix_rfl)
  · intro h before hprefix
    have hsub : ∀ call ∈ before, call ∈ calls := fun call hcall => hprefix.subset hcall
    exact (written_tracks reader before (fun call hcall => hran call (hsub call hcall))
      fun call hcall => h call (hsub call hcall)).snapshot reader now counts

end Counting

section Observer

-- A log is reported exactly when it can be read, and a log of calls is counted exactly after
-- each of them if and only if they are clean.
theorem log_reported_iff (reader : Runtime) (now : PyStr) (counts : QueueCounts) :
    (∀ content, (∃ data, snapshot reader now counts (.ok ⟨content, none⟩) = .ok data ∧
        Reports reader (readLines content).lines data) ↔ Readable reader content) ∧
    ∀ calls, (∀ call ∈ calls, ∃ rt lockPath, call.Ran rt lockPath) →
      ((∀ before, before <+: calls → CountedExactly reader now counts before) ↔
        ∀ call ∈ calls, call.Clean reader) := by
  refine ⟨fun content => ⟨?_, ?_⟩, counted_iff_clean reader now counts⟩
  · rintro ⟨data, h, -⟩
    exact (snapshot_isOk_iff reader now counts content).mp ⟨data, h⟩
  · intro hreadable
    obtain ⟨data, h⟩ := (snapshot_isOk_iff reader now counts content).mpr hreadable
    exact ⟨data, h, snapshot_reports reader now counts content data h⟩

def sampleRuntime : Runtime := ⟨fun _ => zeroDigest, fun _ => false, 1000⟩

def sampleCounts : QueueCounts := ⟨some 0, some 0, some 0, some 0⟩

-- The decoder's exception is no `OSError`.
theorem undecodable_log_raises :
    snapshot sampleRuntime [] sampleCounts (.ok ⟨[0xFF], none⟩) = .error .unicodeDecode := by
  have hread : (⟨[0xFF], none⟩ : LogRead).stream = ⟨[], true⟩ := readLines_undecodable
  rw [snapshot, inspectActionLog, inspectRead, hread]
  rfl

def sampleTime : UtcTime where
  val := py "2026-01-01T00:00:00.000Z"
  property c hc := by
    have hall : (py "2026-01-01T00:00:00.000Z").all (fun c => 0x20 ≤ c.val && c.val < 0x7F) = true := by decide
    simpa using List.all_eq_true.mp hall c hc

def sampleAnswer : (op : AuditOp) → Except PyExc op.Res
  | .utcNow => .ok sampleTime
  | .makeParent | .createLock | .writeLock _ | .syncLock | .openLog | .writeLine _ | .syncLog | .closeLog
  | .closeLock | .unlinkLock => .ok ()

def sampleEvent : List (PyData × PyData) := [(.str (py "phase"), .str (py "TASK_COMPLETED"))]

-- Another process holds the lock.
def lockedAnswer : (op : AuditOp) → Except PyExc op.Res
  | .createLock => .error .fileExists
  | op => sampleAnswer op

def lockedCall : Call where
  pid := 1
  event := sampleEvent
  steps := [⟨.makeParent, .ok ()⟩, ⟨.createLock, .error .fileExists⟩]
  outcome := .error (lockExists [])
  added := []

theorem lockedCall_ran : lockedCall.Ran sampleRuntime [] := by
  refine ⟨Prog.runs_result lockedAnswer (appendAudit sampleRuntime 1 [] (.dict sampleEvent)), ?_, ?_, fun _ => rfl⟩
  · simp [lockedCall]
  · simp [lockedCall]

-- A call that finds the log locked, and one that appends its event.
theorem one_event_counted : ∃ calls : List Call, calls.length = 2 ∧
    (∀ call ∈ calls, ∃ rt lockPath, call.Ran rt lockPath) ∧ (successful calls).length = 1 ∧
    CountedExactly sampleRuntime [] sampleCounts calls := by
  obtain ⟨line, hline⟩ : ∃ line, eventLine sampleRuntime (.dict sampleEvent) = .ok line := by
    have hsome : (eventLine sampleRuntime (.dict sampleEvent)).toOption.isSome = true := by decide +kernel
    obtain ⟨line, hline⟩ := Option.isSome_iff_exists.mp hsome
    exact ⟨line, toOption_eq_some _ _ hline⟩
  have hruns := Prog.runs_result sampleAnswer (appendAudit sampleRuntime 1 [] (.dict sampleEvent))
  have hreturns := appendLine_quiet [] 1 line
  rw [← hline] at hreturns
  obtain ⟨u, hresult⟩ := (hreturns _ _ hruns).mpr fun step hstep => by
    obtain ⟨op, -, rfl⟩ := List.mem_map.mp hstep
    rintro ⟨e, he, -⟩
    cases op <;> cases he
  rw [hresult] at hruns
  have hran : ∀ call ∈ [lockedCall, _], ∃ rt lockPath, call.Ran rt lockPath := List.forall_mem_cons.mpr
    ⟨⟨_, _, lockedCall_ran⟩,
      List.forall_mem_singleton.mpr ⟨_, _, ran_of_ok sampleRuntime [] 1 sampleEvent _ line hruns hline⟩⟩
  obtain ⟨text, htext, hbytes⟩ := eventLine_eq_ok sampleRuntime sampleEvent line hline
  have hreadable : Readable sampleRuntime line := by
    obtain ⟨fields, hobject⟩ := htext.object
    exact (readable_event sampleRuntime sampleRuntime line text htext hbytes).mpr (by rw [hobject]; simp)
  refine ⟨_, rfl, hran, rfl, ((log_reported_iff sampleRuntime [] sampleCounts).2 _ hran).mpr ?_ _ List.prefix_rfl⟩
  exact List.forall_mem_cons.mpr ⟨rfl, List.forall_mem_singleton.mpr hreadable⟩

end Observer

end V91Core.Observer
