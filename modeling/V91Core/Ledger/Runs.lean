import V91Core.Effect.Run
import V91Core.Ledger.Frames

namespace V91Core.Ledger

open V91Core.Python V91Core.Effect

-- One step of the users of a ledger file. Only the object opened last appends.
inductive Call where
  | openLedger
  | append (payload : Json.Dict) (timestamp : PyStr)

-- `ledger` is the object opened last and `appender` the one whose append returned
-- last. `appended` holds the arguments of the appends that returned.
structure Session where
  file : Option Bytes
  ledger : Option HashChainLedger
  appender : Option HashChainLedger
  appended : List (Json.Dict × PyStr)

def Session.start (file : Option Bytes) : Session := ⟨file, none, none, []⟩

-- `append` and `verify_chain` are called directly. The constructor is called as a
-- class, and it calls `verify_chain` and `_read_head` from its own frame.
def Session.step (rt : Runtime) (s : Session) : Call → Session
  | .openLedger =>
      match HashChainLedger.init (rt.below 2) s.file s.file with
      | .ok ledger => { s with ledger := some ledger }
      | .error _ => s
  | .append payload timestamp =>
      match s.ledger with
      | none => s
      | some ledger =>
          match ledger.append rt s.file payload.json timestamp with
          | ⟨file, ledger, .ok _⟩ => ⟨file, some ledger, some ledger, s.appended ++ [(payload, timestamp)]⟩
          | ⟨file, ledger, .error _⟩ => { s with file, ledger := some ledger }

def Session.run (rt : Runtime) (s : Session) (calls : List Call) : Session :=
  runFrom (Session.step rt) s calls

def Record.content (r : Record) : Json × Json := (r.timestamp, r.payload)

-- The content that an append stores. Reading a dict back keeps its value and
-- forgets the order of its keys.
def storedContent (call : Json.Dict × PyStr) : Json × Json := (.str call.2, Json.norm call.1.json)

-- A constructor has room for the record of this payload.
def Reopenable (rt : Runtime) (payload : Json.Dict) : Prop := Json.depth payload.json + 3 ≤ rt.nesting

-- What the file and the objects of a session have in common after every step.
structure Session.Inv (rt : Runtime) (s : Session) (rs : List Record) : Prop where
  chained : Chained rt s.file rs
  lineEnd : openLine s.file = []
  head : ∃ head, headAfter (.str genesis) rs = .str head
  ledger : ∀ ledger ∈ s.ledger, ledger = ledgerAfter rs
  appender : ∀ ledger ∈ s.appender, ledger = ledgerAfter rs
  appended : rs.map Record.content = s.appended.map storedContent
  reopens : (∀ call ∈ s.appended, Reopenable rt call.1) → Chained (rt.below 2) s.file rs

theorem Session.Inv.safe (rt : Runtime) (s : Session) (rs : List Record) (h : s.Inv rt rs) (rt' : Runtime)
    (hchained : Chained rt' s.file rs) : AppendSafe rt' s.file := by
  constructor
  · simp [h.lineEnd]
  · rw [records_of_chained rt' s.file rs hchained]
    exact (headAfter_str_iff rs).mp h.head

theorem Session.Inv.start (rt : Runtime) (file : Option Bytes) (hfile : file = none ∨ file = some []) :
    (Session.start file).Inv rt [] := by
  have hchained : ∀ rt, Chained rt file [] ∧ openLine file = [] := by
    intro rt
    rcases hfile with rfl | rfl
    · exact ⟨rfl, rfl⟩
    · exact ⟨chained_empty rt, rfl⟩
  exact ⟨(hchained rt).1, (hchained rt).2, ⟨genesis, rfl⟩, by simp [Session.start], by simp [Session.start], rfl,
    fun _ => (hchained _).1⟩

-- The new object of a constructor that returns is in step with the file.
theorem Session.Inv.openLedger (rt : Runtime) (s : Session) (rs : List Record) (h : s.Inv rt rs) :
    (s.step rt .openLedger).Inv rt rs := by
  rw [Session.step]
  cases hinit : HashChainLedger.init (rt.below 2) s.file s.file with
  | error e => exact h
  | ok ledger =>
      obtain ⟨rs', hchained, rfl⟩ := chained_of_init _ _ ledger hinit
      obtain rfl : rs' = rs := by
        rw [← records_of_chained rt s.file rs' hchained.above, records_of_chained rt s.file rs h.chained]
      exact ⟨h.chained, h.lineEnd, h.head, by simp, h.appender, h.appended, h.reopens⟩

theorem depth_record (ledger : HashChainLedger) (head : PyStr) (hhead : ledger.head = .str head)
    (timestamp digest : PyStr) (payload : Json) :
    Json.depth (ledger.record timestamp payload digest) = Json.depth payload + 1 := by
  simp [HashChainLedger.record, hhead, Json.depth, Json.depthFields]

theorem Session.Inv.append (rt : Runtime) (s : Session) (rs : List Record) (h : s.Inv rt rs)
    (payload : Json.Dict) (timestamp : PyStr) : ∃ rs', (s.step rt (.append payload timestamp)).Inv rt rs' := by
  rw [Session.step]
  cases hledger : s.ledger with
  | none => exact ⟨rs, h⟩
  | some ledger =>
      obtain rfl := h.ledger ledger hledger
      simp only
      split
      · rename_i file' ledger' record happend
        obtain ⟨digest, hchained, rfl, hopen⟩ := chained_append rt s.file file' rs ledger' payload.json
          record timestamp h.chained (h.safe rt s rs rt h.chained) payload.wf happend
        refine ⟨_, hchained, hopen, ⟨digest, ?_⟩, by simp, by simp, ?_, fun hreopens => ?_⟩
        · simp [headAfter, appendedRecord]
        · simp [h.appended, Record.content, storedContent, appendedRecord]
        · simp only [List.forall_mem_append, List.forall_mem_singleton] at hreopens
          have hbelow := h.reopens hreopens.1
          obtain ⟨digest₀, -, hdigest₀, -, -, -, hrecord⟩ := append_eq_ok _ _ _ _ _ _ _ _ happend
          obtain ⟨head, hhead⟩ := h.head
          have hdepth : Json.depth record ≤ rt.nesting - 2 := by
            rw [hrecord, depth_record (ledgerAfter rs) head hhead]
            have := hreopens.2
            unfold Reopenable at this
            omega
          obtain ⟨digest', hchained', hledger', -⟩ := chained_append (rt.below 2) s.file file' rs _ payload.json
            record timestamp hbelow (h.safe rt s rs _ hbelow) payload.wf
            (append_below rt 2 _ _ _ _ _ _ _ happend hdepth)
          obtain rfl : digest' = digest := by
            simpa [ledgerAfter, headAfter, appendedRecord] using hledger'.symm
          exact hchained'
      · rename_i file' ledger' e happend
        obtain ⟨hchained, hopen, rfl⟩ := chained_append_error rt s.file file' _ ledger' payload.json
          timestamp e rs h.chained happend
        refine ⟨rs, hchained, hopen.trans h.lineEnd, h.head, by simp, h.appender, h.appended, fun hreopens => ?_⟩
        obtain ⟨-, hsame⟩ := append_eq_error rt _ _ _ _ _ _ e happend
        rcases hsame with rfl | ⟨hnone, rfl⟩
        · exact h.reopens hreopens
        · have hbelow := h.reopens hreopens
          rw [hnone] at hbelow
          obtain rfl := hbelow
          exact chained_empty _

theorem Session.Inv.run (rt : Runtime) (calls : List Call) (s : Session) (rs : List Record)
    (h : s.Inv rt rs) : ∃ rs', (s.run rt calls).Inv rt rs' := by
  refine runFrom_inv (fun s => ∃ rs, s.Inv rt rs) (fun s call ⟨rs, h⟩ => ?_) s calls ⟨rs, h⟩
  cases call with
  | openLedger => exact ⟨rs, h.openLedger rt s rs⟩
  | append payload timestamp => exact h.append rt s rs payload timestamp

-- The chain is valid, it holds what was appended, and an append that raises leaves
-- the records and the object as they were.
structure Session.Kept (rt : Runtime) (s : Session) : Prop where
  valid : verifyChain rt s.file = .ok ⟨s.appended.length, true, []⟩
  stored : (records rt s.file).map Record.content = s.appended.map storedContent
  harmless : ∀ ledger ∈ s.ledger, ∀ (payload : Json.Dict) timestamp file' ledger' e,
    ledger.append rt s.file payload.json timestamp = ⟨file', ledger', .error e⟩ →
      records rt file' = records rt s.file ∧ ledger' = ledger

-- A new object has the head and the number of the old ones.
def Session.Resumed (rt : Runtime) (s : Session) : Prop :=
  ∃ fresh, HashChainLedger.init (rt.below 2) s.file s.file = .ok fresh ∧ fresh.seq = s.appended.length ∧
    (∀ ledger ∈ s.ledger, ledger = fresh) ∧ ∀ ledger ∈ s.appender, ledger = fresh

theorem Session.Inv.length (rt : Runtime) (s : Session) (rs : List Record) (h : s.Inv rt rs) :
    rs.length = s.appended.length := by
  rw [← List.length_map (f := Record.content), h.appended, List.length_map]

theorem Session.Inv.kept (rt : Runtime) (s : Session) (rs : List Record) (h : s.Inv rt rs) : s.Kept rt := by
  refine ⟨?_, ?_, ?_⟩
  · rw [verifyChain_of_chained rt s.file rs h.chained, h.length]
  · rw [records_of_chained rt s.file rs h.chained, h.appended]
  · intro ledger hledger payload timestamp file' ledger' e happend
    obtain ⟨hchained, -, hsame⟩ := chained_append_error rt s.file file' ledger ledger' payload.json timestamp e
      rs h.chained happend
    exact ⟨by rw [records_of_chained rt file' rs hchained, records_of_chained rt s.file rs h.chained], hsame⟩

-- The constructor accepts the file if it has room for every record in it.
theorem Session.Inv.resumed_iff (rt : Runtime) (s : Session) (rs : List Record) (h : s.Inv rt rs) :
    s.Resumed rt ↔ ∀ call ∈ s.appended, Reopenable rt call.1 := by
  constructor
  · rintro ⟨fresh, hinit, -⟩ call hcall
    obtain ⟨rs', hchained, -⟩ := chained_of_init _ _ fresh hinit
    obtain rfl : rs' = rs := by
      rw [← records_of_chained rt s.file rs' hchained.above, records_of_chained rt s.file rs h.chained]
    have hstored : storedContent call ∈ rs'.map Record.content := by
      rw [h.appended]
      exact List.mem_map_of_mem hcall
    obtain ⟨r, hr, hcontent⟩ := List.mem_map.mp hstored
    have hdepth := depth_of_chained (rt.below 2) s.file hchained r hr
    have hpayload : r.payload = Json.norm call.1.json := congrArg Prod.snd hcontent
    rw [hpayload, Json.depth_norm, Runtime.below_nesting] at hdepth
    unfold Reopenable
    omega
  · intro hreopens
    exact ⟨ledgerAfter rs, init_of_chained _ s.file rs (h.reopens hreopens), h.length, h.ledger, h.appender⟩

-- An append that returns has stored a payload that a constructor can read.
def AppendReopenable (rt : Runtime) (s : Session) : Call → Prop
  | .openLedger => True
  | .append payload timestamp =>
      ∀ ledger record, s.ledger = some ledger →
        (ledger.append rt s.file payload.json timestamp).result = .ok record → Reopenable rt payload

theorem appended_step (rt : Runtime) (s : Session) (call : Call) :
    (∀ c ∈ (s.step rt call).appended, Reopenable rt c.1) ↔
      (∀ c ∈ s.appended, Reopenable rt c.1) ∧ AppendReopenable rt s call := by
  cases call with
  | openLedger =>
      rw [Session.step]
      cases HashChainLedger.init (rt.below 2) s.file s.file <;> simp [AppendReopenable]
  | append payload timestamp =>
      rw [Session.step]
      cases hledger : s.ledger with
      | none => simp [AppendReopenable, hledger]
      | some ledger =>
          have hiff : AppendReopenable rt s (.append payload timestamp) ↔
              ((∃ record, (ledger.append rt s.file payload.json timestamp).result = .ok record) →
                Reopenable rt payload) := by
            constructor
            · exact fun h ⟨record, hrecord⟩ => h ledger record hledger hrecord
            · rintro h ledger' record hledger' hrecord
              obtain rfl := Option.some.inj (hledger.symm.trans hledger')
              exact h ⟨record, hrecord⟩
          rw [hiff]
          rcases happend : ledger.append rt s.file payload.json timestamp with ⟨file', ledger', e | record⟩
          · simp [happend]
          · simp only [happend, List.forall_mem_append, List.forall_mem_singleton, Except.ok.injEq, exists_eq',
              true_imp_iff]

theorem appended_run (rt : Runtime) (calls : List Call) (s : Session) :
    (∀ c ∈ (s.run rt calls).appended, Reopenable rt c.1) ↔
      (∀ c ∈ s.appended, Reopenable rt c.1) ∧ EachStep (Session.step rt) (AppendReopenable rt) s calls := by
  induction calls generalizing s with
  | nil => exact (and_iff_left trivial).symm
  | cons call calls ih => exact (ih (s.step rt call)).trans (by rw [appended_step, and_assoc, EachStep])

-- Two objects, each opened and used once.
def sampleCalls : List Call :=
  [.openLedger, .append Json.Dict.empty [cp 't'], .openLedger, .append Json.Dict.empty [cp 't']]

-- A list in a dict where the interpreter has room for four nested containers.
def nestedPayload : Json.Dict := ⟨[([cp 'k'], .arr [])], by simp [Json.Wf]⟩

end V91Core.Ledger
