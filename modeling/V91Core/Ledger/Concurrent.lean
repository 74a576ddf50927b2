import V91Core.Effect.Run
import V91Core.Ledger.Frames
import Mathlib.Logic.Function.Basic

namespace V91Core.Ledger

open V91Core.Python V91Core.Effect

-- The constructor verifies the file first and reads its last hash later.
inductive Handle where
  | closed
  | verified (seq : Nat)
  | opened (ledger : HashChainLedger)
deriving DecidableEq

-- Objects of any number of processes over one file.
structure Shared where
  file : Option Bytes
  handles : Nat → Handle

def Shared.start (file : Option Bytes) : Shared := ⟨file, fun _ => .closed⟩

inductive Event where
  | verify (i : Nat)
  | readHead (i : Nat)
  | append (i : Nat) (payload : Json.Dict) (timestamp : PyStr)

def Shared.set (s : Shared) (i : Nat) (handle : Handle) : Shared :=
  { s with handles := Function.update s.handles i handle }

-- The constructor calls `verify_chain` and `_read_head` two frames further down than a
-- direct call. An object whose constructor raises stays closed.
def Shared.step (rt : Runtime) (s : Shared) : Event → Shared
  | .verify i =>
      match s.handles i, verifyChain (rt.below 2) s.file with
      | .closed, .ok report => if report.chainValid then s.set i (.verified report.recordsChecked) else s
      | _, _ => s
  | .readHead i =>
      match s.handles i, readHead (rt.below 2) s.file with
      | .verified seq, .ok head => s.set i (.opened ⟨seq, head⟩)
      | .verified _, .error _ => s.set i .closed
      | _, _ => s
  | .append i payload timestamp =>
      match s.handles i with
      | .opened ledger =>
          let done := ledger.append rt s.file payload.json timestamp
          { s with file := done.file }.set i (.opened done.ledger)
      | _ => s

def Shared.Valid (rt : Runtime) (s : Shared) : Prop := ∃ n, verifyChain rt s.file = .ok ⟨n, true, []⟩

-- An append that returns is made by an object that has seen every record of the
-- file, and its record starts on a line of its own.
def InStep (rt : Runtime) (s : Shared) : Event → Prop
  | .append i payload timestamp =>
      ∀ ledger record, s.handles i = .opened ledger →
        (ledger.append rt s.file payload.json timestamp).result = .ok record →
        ledger.seq = (records rt s.file).length ∧ AppendSafe rt s.file
  | _ => True

-- What an object may have cached when the file holds these records: its head is
-- right as long as its number is.
def Handle.Cached (rs : List Record) : Handle → Prop
  | .closed => True
  | .verified seq => seq ≤ rs.length
  | .opened ledger =>
      ledger.seq ≤ rs.length ∧ (ledger.seq = rs.length → ledger = ledgerAfter rs) ∧ Json.Wf ledger.head

theorem Handle.Cached.appended (handle : Handle) (rs : List Record) (r : Record) (h : handle.Cached rs) :
    handle.Cached (rs ++ [r]) := by
  cases handle with
  | closed => trivial
  | verified seq =>
      simp only [Handle.Cached, List.length_append, List.length_singleton] at h ⊢
      omega
  | opened ledger =>
      obtain ⟨hle, -, hwf⟩ := h
      refine ⟨?_, ?_, hwf⟩
      · simp only [List.length_append, List.length_singleton]
        omega
      · simp only [List.length_append, List.length_singleton]
        omega

structure Shared.Inv (rt : Runtime) (s : Shared) (rs : List Record) : Prop where
  chained : Chained rt s.file rs
  cached : ∀ i, (s.handles i).Cached rs

theorem chained_head_wf (rt : Runtime) (file : Option Bytes) (rs : List Record) (h : Chained rt file rs) :
    Json.Wf (headAfter (.str genesis) rs) := by
  cases file with
  | none =>
      obtain rfl := h
      trivial
  | some content => exact goodLines_head_wf rt _ _ _ _ h.2 trivial

theorem ledgerAfter_cached (rt : Runtime) (file : Option Bytes) (rs : List Record) (h : Chained rt file rs) :
    (Handle.opened (ledgerAfter rs)).Cached rs :=
  ⟨le_rfl, fun _ => rfl, chained_head_wf rt file rs h⟩

theorem Shared.Inv.set (rt : Runtime) (s : Shared) (rs : List Record) (h : s.Inv rt rs) (i : Nat)
    (handle : Handle) (hcached : handle.Cached rs) : (s.set i handle).Inv rt rs := by
  refine ⟨h.chained, fun j => ?_⟩
  by_cases hj : j = i
  · subst hj
    simpa [Shared.set] using hcached
  · simpa [Shared.set, hj] using h.cached j

-- What each kind of step does to a valid file. An append adds a record or none.
theorem Shared.Inv.step (rt : Runtime) (s : Shared) (rs : List Record) (h : s.Inv rt rs) (event : Event)
    (hstep : InStep rt s event) :
    ∃ rs', (s.step rt event).Inv rt rs' ∧ (AppendSafe rt s.file → AppendSafe rt (s.step rt event).file) := by
  cases event with
  | verify i =>
      rw [Shared.step]
      split
      · rename_i report hi hverify
        split
        · rename_i hvalid
          obtain ⟨rs', hchained, rfl⟩ := chained_of_verifyChain _ s.file report hverify hvalid
          rw [← records_of_chained rt s.file rs' hchained.above, records_of_chained rt s.file rs h.chained]
          exact ⟨rs, h.set rt s rs i _ le_rfl, id⟩
        · exact ⟨rs, h, id⟩
      · exact ⟨rs, h, id⟩
  | readHead i =>
      have hi := h.cached i
      rw [Shared.step]
      split
      · rename_i seq head hhandle hread
        rw [hhandle] at hi
        obtain rfl := Except.ok.inj ((readHead_above rt 2 s.file head hread).symm.trans
          (readHead_of_chained rt s.file rs h.chained))
        refine ⟨rs, h.set rt s rs i _ ⟨hi, fun hseq => ?_, chained_head_wf rt s.file rs h.chained⟩, id⟩
        rw [ledgerAfter, ← hseq]
      · exact ⟨rs, h.set rt s rs i _ trivial, id⟩
      · exact ⟨rs, h, id⟩
  | append i payload timestamp =>
      have hi := h.cached i
      rw [Shared.step]
      cases hhandle : s.handles i with
      | closed => exact ⟨rs, h, id⟩
      | verified seq => exact ⟨rs, h, id⟩
      | opened ledger =>
          rw [hhandle] at hi
          simp only
          cases happend : ledger.append rt s.file payload.json timestamp with
          | mk file' ledger' result =>
              cases result with
              | error e =>
                  obtain ⟨hchained, hopen, rfl⟩ := chained_append_error rt s.file file' ledger ledger' _
                    timestamp e rs h.chained happend
                  have hinv : Shared.Inv rt { s with file := file' } rs := ⟨hchained, h.cached⟩
                  refine ⟨rs, hinv.set rt _ rs i _ hi, fun hsafe => ⟨?_, ?_⟩⟩
                  · exact fun c hc => hsafe.lineEnd c (hopen ▸ hc)
                  · have hlast := hsafe.lastHash
                    rw [records_of_chained rt s.file rs h.chained] at hlast
                    change ∀ r ∈ (records rt file').getLast?, _
                    rwa [records_of_chained rt file' rs hchained]
              | ok record =>
                  obtain ⟨hseq, hsafe⟩ := hstep ledger record hhandle (by rw [happend])
                  rw [records_of_chained rt s.file rs h.chained] at hseq
                  obtain rfl := hi.2.1 hseq
                  obtain ⟨digest, hchained, rfl, hopen⟩ := chained_append rt s.file file' rs ledger'
                    payload.json record timestamp h.chained hsafe payload.wf happend
                  have hinv : Shared.Inv rt { s with file := file' }
                      (rs ++ [appendedRecord rs timestamp payload.json digest]) :=
                    ⟨hchained, fun j => (h.cached j).appended _ _ _⟩
                  refine ⟨_, hinv.set rt _ _ i _ (ledgerAfter_cached rt file' _ hchained), fun _ => ⟨?_, ?_⟩⟩
                  · change ∀ c ∈ openLine file', _
                    simp [hopen]
                  · change ∀ r ∈ (records rt file').getLast?, _
                    rw [records_of_chained rt file' _ hchained]
                    simp [appendedRecord]

-- An append that keeps a safe file valid is made by an object that has seen all
-- of its records.
theorem Shared.Inv.inStep_of_valid (rt : Runtime) (s : Shared) (rs : List Record) (h : s.Inv rt rs)
    (hsafe : AppendSafe rt s.file) (event : Event) (hvalid : (s.step rt event).Valid rt) : InStep rt s event := by
  cases event with
  | verify i => trivial
  | readHead i => trivial
  | append i payload timestamp =>
      intro ledger record hhandle hreturn
      refine ⟨?_, hsafe⟩
      have hi := h.cached i
      rw [hhandle] at hi
      cases happend : ledger.append rt s.file payload.json timestamp with
      | mk file' ledger' result =>
          rw [happend] at hreturn
          subst hreturn
          obtain ⟨n, hverify⟩ := hvalid
          simp only [Shared.step, hhandle, happend, Shared.set] at hverify
          obtain ⟨rs', hchained, -⟩ := chained_of_verifyChain rt file' _ hverify rfl
          rw [records_of_chained rt s.file rs h.chained]
          exact seq_of_chained_append rt s.file file' rs rs' ledger ledger' payload.json record timestamp
            h.chained hsafe payload.wf hi.2.2 happend hchained

theorem Shared.Inv.valid (rt : Runtime) (s : Shared) (rs : List Record) (h : s.Inv rt rs) : s.Valid rt :=
  ⟨rs.length, verifyChain_of_chained rt s.file rs h.chained⟩

-- Two objects over one file; each is opened after the last append of the other.
def takingTurns : List Event :=
  [.verify 0, .readHead 0, .append 0 Json.Dict.empty [cp 't'], .verify 1, .readHead 1,
    .append 1 Json.Dict.empty [cp 't']]

-- Two objects are opened before either of them appends.
def racingAppends : List Event :=
  [.verify 0, .readHead 0, .verify 1, .readHead 1, .append 0 Json.Dict.empty [cp 't'],
    .append 1 Json.Dict.empty [cp 't']]

end V91Core.Ledger
