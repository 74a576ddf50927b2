import V91Core.Measurement.Append
import V91Core.Measurement.Process

namespace V91Core.Measurement

open V91Core.Python V91Core.Effect

variable {ι : Type}

structure Shared.Inv (rt : Runtime) (s : Shared ι) : Prop where
  valid : ∃ state, verifyLedger rt s.ledger = .ok state
  lineEnd : openLine s.ledger = []
  exclusive : s.inside = s.lock.toList
  counted : s.writers.length = (records rt s.ledger).length
  once : s.writers.Nodup

-- The ledger only grows.
structure Grows (rt : Runtime) (s s' : Shared ι) : Prop where
  records : records rt s.ledger <+: records rt s'.ledger
  writers : s.writers <+: s'.writers

-- The lock belongs to the process that created it, and so does the ledger as long
-- as the lock exists.
structure Keeps (i : ι) (s s' : Shared ι) : Prop where
  lock : s.lock = some i ↔ s'.lock = some i
  ledger : s.lock = some i → s'.ledger = s.ledger
  writers : i ∈ s'.writers → i ∈ s.writers

theorem Grows.refl (rt : Runtime) (s : Shared ι) : Grows rt s s := ⟨List.prefix_refl _, List.prefix_refl _⟩

theorem Keeps.refl (i : ι) (s : Shared ι) : Keeps i s s := ⟨Iff.rfl, fun _ => rfl, id⟩

theorem Grows.trans {rt : Runtime} {s s' s'' : Shared ι} (h : Grows rt s s') (h' : Grows rt s' s'') :
    Grows rt s s'' :=
  ⟨h.records.trans h'.records, h.writers.trans h'.writers⟩

theorem Keeps.trans {i : ι} {s s' s'' : Shared ι} (h : Keeps i s s') (h' : Keeps i s' s'') : Keeps i s s'' :=
  ⟨h.lock.trans h'.lock, fun hlock => (h'.ledger (h.lock.mp hlock)).trans (h.ledger hlock),
    fun hmem => h.writers (h'.writers hmem)⟩

-- The line of process `i` with this index is this record.
structure StoredAt (rt : Runtime) (i : ι) (n : Nat) (record : Json) (s : Shared ι) : Prop where
  record : (records rt s.ledger)[n]? = some record
  writer : s.writers[n]? = some i

theorem getElem?_mono {α : Type} (xs ys : List α) (n : Nat) (x : α) (h : xs <+: ys) (hx : xs[n]? = some x) :
    ys[n]? = some x := by
  obtain ⟨more, rfl⟩ := h
  rw [List.getElem?_append_left (List.getElem?_eq_some_iff.mp hx).1, hx]

theorem StoredAt.stable (rt : Runtime) (i : ι) (n : Nat) (record : Json) (s s' : Shared ι) (hgrows : Grows rt s s')
    (h : StoredAt rt i n record s) : StoredAt rt i n record s' :=
  ⟨getElem?_mono _ _ n _ hgrows.records h.record, getElem?_mono _ _ n _ hgrows.writers h.writer⟩

-- The snapshot of process `i` is the record that `append_snapshot` reported.
def Stored (rt : Runtime) (i : ι) (snapshot : Json) (a : Appended) (s : Shared ι) : Prop :=
  0 < a.sequence ∧ ∃ fields, StoredAt rt i (a.sequence - 1) (.obj fields) s ∧
    Json.lookup (py "sequence") fields = some (.int a.sequence) ∧
    Json.lookup (py "snapshot") fields = some (Json.norm snapshot) ∧
    Json.lookup (py "event_hash") fields = some (.str a.eventHash)

theorem Stored.stable (rt : Runtime) (i : ι) (snapshot : Json) (a : Appended) (s s' : Shared ι) (hgrows : Grows rt s s')
    (h : Stored rt i snapshot a s) : Stored rt i snapshot a s' := by
  obtain ⟨hpos, fields, hstored, hfields⟩ := h
  exact ⟨hpos, fields, hstored.stable rt i _ _ s s' hgrows, hfields⟩

variable [DecidableEq ι]

def contract (rt : Runtime) : Contract (system (ι := ι)) where
  Inv := Shared.Inv rt
  Rely i s s' := Grows rt s s' ∧ Keeps i s s'
  Guar i s s' := Grows rt s s' ∧ ∀ j, j ≠ i → Keeps j s s'
  rely_refl _ s := ⟨.refl rt s, .refl _ s⟩
  rely_trans _ _ _ _ h h' := ⟨h.1.trans h'.1, h.2.trans h'.2⟩
  guar_refl _ s := ⟨.refl rt s, fun _ _ => .refl _ s⟩
  rely_of_guar _ j _ _ hij h := ⟨h.1, h.2 j (Ne.symm hij)⟩
  inv_of_env _ _ _ h := h.elim
  rely_of_env _ _ _ _ h := h.elim

section Steps

variable (rt : Runtime) (i : ι) (s : Shared ι)

theorem createLock_step (h : s.Inv rt) (hlock : s.lock = none) :
    Shared.Inv rt { s with lock := some i, inside := i :: s.inside } ∧
      (contract rt).Guar i s { s with lock := some i, inside := i :: s.inside } := by
  refine ⟨⟨h.valid, h.lineEnd, ?_, h.counted, h.once⟩, ⟨List.prefix_refl _, List.prefix_refl _⟩,
    fun j hj => ⟨?_, fun _ => rfl, id⟩⟩
  · simp [h.exclusive, hlock]
  · simp [hlock, hj.symm]

theorem unlinkLock_step (h : s.Inv rt) (hlock : s.lock = some i) :
    Shared.Inv rt { s with lock := none, inside := s.inside.erase i } ∧
      (contract rt).Guar i s { s with lock := none, inside := s.inside.erase i } := by
  refine ⟨⟨h.valid, h.lineEnd, ?_, h.counted, h.once⟩, ⟨List.prefix_refl _, List.prefix_refl _⟩,
    fun j hj => ⟨?_, fun _ => rfl, id⟩⟩
  · simp [h.exclusive, hlock]
  · simp [hlock, hj.symm]

theorem openLedger_step (h : s.Inv rt) (hlock : s.lock = some i) :
    Shared.Inv rt { s with ledger := some (s.ledger.getD []) } ∧
      (contract rt).Guar i s { s with ledger := some (s.ledger.getD []) } := by
  obtain ⟨state, hstate⟩ := h.valid
  obtain ⟨hopened, hopen, hrecords⟩ := verifyLedger_opened rt s.ledger state hstate
  refine ⟨⟨⟨_, hopened⟩, hopen.trans h.lineEnd, h.exclusive, ?_, h.once⟩, ⟨?_, List.prefix_refl _⟩,
    fun j hj => ⟨Iff.rfl, fun hj' => ?_, id⟩⟩
  · rw [hrecords, h.counted]
  · rw [hrecords]
  · rw [hlock] at hj'
    exact absurd (Option.some.inj hj').symm hj

-- Writing the next record, when no line of this process has been written.
theorem writeLine_step (h : s.Inv rt) (hlock : s.lock = some i) (hfresh : i ∉ s.writers) (file : Option Bytes)
    (hledger : s.ledger = some (file.getD [])) (state : LedgerState) (recordedAt : PyStr) (snapshot : Json)
    (digest : PyStr) (line : Bytes) (hverify : verifyLedger rt file = .ok state) (hsnapshot : Json.Wf snapshot)
    (hhash : eventHash rt state.lastHash (.obj (payloadFields state recordedAt snapshot)) = .ok digest)
    (hline : recordLine rt (.obj (recordFields (payloadFields state recordedAt snapshot) digest)) = .ok line)
    (s' : Shared ι)
    (hs' : s' = { s with ledger := some (s.ledger.getD [] ++ line), writers := s.writers ++ [i] }) :
    s'.Inv rt ∧ (contract rt).Guar i s s' ∧ s'.lock = some i ∧
      (records rt s'.ledger)[state.events]? = some (.obj (storedFields state recordedAt snapshot digest)) ∧
      s'.writers[state.events]? = some i := by
  obtain ⟨hevents, -, -, -⟩ := verifyLedger_eq_ok rt file state hverify
  obtain ⟨-, hopen, hrecords⟩ := verifyLedger_opened rt file state hverify
  have hlineEnd := h.lineEnd
  have hcounted := h.counted
  rw [hledger, hopen] at hlineEnd
  rw [hledger, hrecords] at hcounted
  obtain ⟨hvalid, hclosed, happended⟩ := verifyLedger_appended rt file state recordedAt snapshot digest line
    hverify hlineEnd hsnapshot hhash hline
  subst hs'
  rw [hledger, Option.getD_some]
  refine ⟨⟨⟨_, hvalid⟩, hclosed, h.exclusive, ?_, ?_⟩, ⟨⟨?_, List.prefix_append _ _⟩, fun j hj => ⟨Iff.rfl, ?_, ?_⟩⟩,
    hlock, ?_, ?_⟩
  · rw [happended, List.length_append, List.length_append, hcounted]
    rfl
  · exact List.nodup_append.mpr ⟨h.once, List.nodup_singleton i, by
      rintro a ha b hb rfl
      exact hfresh (List.mem_singleton.mp hb ▸ ha)⟩
  · rw [hledger, happended, hrecords]
    exact List.prefix_append _ _
  · intro hj'
    rw [hlock] at hj'
    exact absurd (Option.some.inj hj').symm hj
  · simp [hj]
  · rw [happended, hevents, List.getElem?_append_right le_rfl, Nat.sub_self]
    rfl
  · rw [hevents, ← hcounted, List.getElem?_append_right le_rfl, Nat.sub_self]
    rfl

end Steps

section Programs

variable (rt : Runtime) (i : ι)

-- Process `i` holds the lock, has not written a line yet and has left the ledger
-- as it is.
structure Holds (file : Option Bytes) (s : Shared ι) : Prop where
  lock : s.lock = some i
  fresh : i ∉ s.writers
  ledger : s.ledger = file

theorem Holds.stable (file : Option Bytes) (s s' : Shared ι) (hrely : (contract rt).Rely i s s')
    (h : Holds i file s) : Holds i file s' :=
  ⟨hrely.2.lock.mp h.lock, fun hmem => h.fresh (hrely.2.writers hmem), (hrely.2.ledger h.lock).trans h.ledger⟩

theorem sat_verifyFile (file : Option Bytes) (s : Shared ι) (h : Holds i file s) :
    (contract rt).Sat i (fun s' (r : Except PyExc LedgerState) =>
      Holds i file s' ∧ ∀ state, r = .ok state → verifyLedger rt file = .ok state) (verifyFile (rt.below 1)) s := by
  refine Contract.sat_perform_bind (Holds i file) (Holds.stable rt i file) h ?_
  intro s' r s'' hinv h' hexec
  cases hexec with
  | fails e => exact ⟨hinv, (contract rt).guar_refl i s', fun s'' hrely _ => ⟨h'.stable rt i file _ _ hrely, by simp⟩⟩
  | ledgerExists =>
      refine ⟨hinv, (contract rt).guar_refl i s', ?_⟩
      change (contract rt).Sat i _ (if s'.ledger.isSome then _ else _) s'
      rw [h'.ledger]
      cases file with
      | none =>
          intro s'' hrely _
          refine ⟨h'.stable rt i none s' s'' hrely, fun state hstate => ?_⟩
          rw [← Except.ok.inj hstate]
          rfl
      | some content =>
          refine Contract.Sat.bind (M := fun s'' (r : Except PyExc Bytes) =>
            Holds i (some content) s'' ∧ ∀ c, r = .ok c → c = content) ?_ ?_ ?_
          · refine Contract.Sat.catching (M := fun s'' (r : Except PyExc Bytes) =>
              Holds i (some content) s'' ∧ ∀ c, r = .ok c → c = content) ?_ ?_ ?_
            · refine Contract.sat_perform fun s'' hrely hinv' r s''' hread => ?_
              have h'' := h'.stable rt i _ s' s'' hrely
              cases hread with
              | fails e =>
                  exact ⟨hinv', (contract rt).guar_refl i s'', fun _ hrely' _ =>
                    ⟨h''.stable rt i _ _ _ hrely', by simp⟩⟩
              | readLedger found hfound =>
                  rw [h''.ledger] at hfound
                  refine ⟨hinv', (contract rt).guar_refl i s'', fun _ hrely' _ => ⟨h''.stable rt i _ _ _ hrely', ?_⟩⟩
                  rintro c hc
                  rw [← Except.ok.inj hc, Option.some.inj hfound]
            · exact fun s'' a _ hmid => hmid
            · exact fun s'' e _ hmid s''' hrely _ => ⟨hmid.1.stable rt i _ _ _ hrely, by simp⟩
          · rintro s'' found hinv' ⟨h'', hfound⟩
            obtain rfl := hfound found rfl
            exact Contract.sat_ofExcept fun s''' hrely _ =>
              ⟨h''.stable rt i _ _ _ hrely, fun state hstate => verifyLedger_above rt 1 _ state hstate⟩
          · rintro s'' e hinv' ⟨h'', -⟩
            exact ⟨h'', by simp⟩

theorem sat_writeRecord (file : Option Bytes) (state : LedgerState) (recordedAt : PyStr) (snapshot : Json)
    (digest : PyStr) (hverify : verifyLedger rt file = .ok state) (hsnapshot : Json.Wf snapshot)
    (hhash : eventHash rt state.lastHash (.obj (payloadFields state recordedAt snapshot)) = .ok digest)
    (s : Shared ι) (h : Holds i file s) :
    (contract rt).Sat i (fun s' (r : Except PyExc Unit) => s'.lock = some i ∧
        (r = .ok () → StoredAt rt i state.events (.obj (storedFields state recordedAt snapshot digest)) s'))
      (writeRecord rt (.obj (recordFields (payloadFields state recordedAt snapshot) digest))) s := by
  obtain ⟨Q, hQ⟩ : ∃ Q : Shared ι → Prop, Q = fun s => s.lock = some i ∧
      StoredAt rt i state.events (.obj (storedFields state recordedAt snapshot digest)) s := ⟨_, rfl⟩
  have hstable : ∀ s s', (contract rt).Rely i s s' → Q s → Q s' := by
    rintro s s' hrely hq
    rw [hQ] at hq ⊢
    exact ⟨hrely.2.lock.mp hq.1, hq.2.stable rt i _ _ s s' hrely.1⟩
  refine Contract.sat_perform_bind (Holds i file) (Holds.stable rt i file) h ?_
  intro s' r s'' hinv h' hopen
  cases hopen with
  | fails e => exact ⟨hinv, (contract rt).guar_refl i s', fun _ hrely _ => ⟨hrely.2.lock.mp h'.lock, by simp⟩⟩
  | openLedger =>
      obtain ⟨hinv', hguar⟩ := openLedger_step rt i s' hinv h'.lock
      refine ⟨hinv', hguar, ?_⟩
      have hopened : Holds i (some (file.getD [])) { s' with ledger := some (s'.ledger.getD []) } :=
        ⟨h'.lock, h'.fresh, by rw [h'.ledger]⟩
      refine Contract.Sat.finishing (M := fun t (r : Except PyExc Unit) => t.lock = some i ∧ (r = .ok () → Q t))
        ?_ ?_ ?_
      · refine Contract.sat_ofExcept_bind ?_ fun e t hrely _ => ⟨hrely.2.lock.mp h'.lock, by simp⟩
        intro line hline
        refine Contract.sat_perform_bind (Holds i (some (file.getD []))) (Holds.stable rt i _) hopened ?_
        intro t r t' hinv'' ht hwrite
        cases hwrite with
        | fails e => exact ⟨hinv'', (contract rt).guar_refl i t, fun _ hrely _ => ⟨hrely.2.lock.mp ht.lock, by simp⟩⟩
        | writeLine line r =>
            obtain ⟨hwritten, hguar', hlock, hrecord, hwriter⟩ := writeLine_step rt i t hinv'' ht.lock ht.fresh file
              ht.ledger state recordedAt snapshot digest line hverify hsnapshot hhash
                (recordLine_above rt 1 _ line hline) _ rfl
            refine ⟨hwritten, hguar', ?_⟩
            cases r with
            | error e => exact fun _ hrely _ => ⟨hrely.2.lock.mp hlock, by simp⟩
            | ok u =>
                have hq : Q { t with ledger := some (t.ledger.getD [] ++ line), writers := t.writers ++ [i] } := by
                  rw [hQ]
                  exact ⟨hlock, hrecord, hwriter⟩
                exact Contract.sat_quiet (Exec.quiet_eq i .syncLedger rfl) Q hstable hq
                  fun _ t' _ hq' => ⟨by rw [hQ] at hq'; exact hq'.1, fun _ => hq'⟩
      · rintro t r _ ⟨hlock, hdone⟩
        refine Contract.sat_quiet (Exec.quiet_eq i .closeLedger rfl)
          (fun t => t.lock = some i ∧ (r = .ok () → Q t)) ?_ ⟨hlock, hdone⟩ ?_
        · exact fun t t' hrely ⟨hlock, hdone⟩ => ⟨hrely.2.lock.mp hlock, fun hr => hstable t t' hrely (hdone hr)⟩
        · rintro c t' _ ⟨hlock', hdone'⟩
          cases c with
          | ok u =>
              refine ⟨hlock', fun hr => ?_⟩
              have hq := hdone' hr
              rw [hQ] at hq
              exact hq.2
          | error e => exact ⟨hlock', by simp⟩
      · exact fun t t' r hrely _ ⟨hlock, hstored⟩ =>
          ⟨hrely.2.lock.mp hlock, fun hr => (hstored hr).stable rt i _ _ t t' hrely.1⟩

theorem sat_lockedAppend (pid : Nat) (snapshot : Json) (hsnapshot : Json.Wf snapshot) (file : Option Bytes)
    (s : Shared ι) (h : Holds i file s) :
    (contract rt).Sat i (fun s' (r : Except PyExc Appended) => s'.lock = some i ∧
        ∀ a, r = .ok a → Stored rt i snapshot a s') (lockedAppend rt pid snapshot) s := by
  have hstable := Holds.stable rt i file
  have hraise : ∀ (e : PyExc) (s' : Shared ι), Holds i file s' → s'.lock = some i ∧
      ∀ a, Except.error e = Except.ok a → Stored rt i snapshot a s' := fun e s' h' => ⟨h'.lock, by simp⟩
  refine Contract.sat_quiet_bind (Exec.quiet_eq i .utcNow rfl) _ hstable h ?_ fun e s' _ => hraise e s'
  intro now s hinv h
  refine Contract.sat_ofExcept_bind ?_ fun e s' hrely _ => hraise e s' (hstable s s' hrely h)
  intro text _
  refine Contract.sat_quiet_bind (Exec.quiet_eq i (.writeLock text) rfl) _ hstable h ?_ fun e s' _ => hraise e s'
  intro _ s hinv h
  refine Contract.sat_quiet_bind (Exec.quiet_eq i .syncLock rfl) _ hstable h ?_ fun e s' _ => hraise e s'
  intro _ s hinv h
  refine (sat_verifyFile rt i file s h).bind ?_ fun s' e _ h' => hraise e s' h'.1
  rintro s state hinv ⟨h, hverify⟩
  have hverify := hverify state rfl
  refine Contract.sat_quiet_bind (Exec.quiet_eq i .utcNow rfl) _ hstable h ?_ fun e s' _ => hraise e s'
  intro recordedAt s hinv h
  refine Contract.sat_ofExcept_bind ?_ fun e s' hrely _ => hraise e s' (hstable s s' hrely h)
  intro digest hhash
  refine (sat_writeRecord rt i file state recordedAt snapshot digest hverify hsnapshot hhash s h).bind ?_ ?_
  · rintro s' u hinv ⟨hlock, hstored⟩ s'' hrely _
    refine ⟨hrely.2.lock.mp hlock, fun a ha => ?_⟩
    obtain rfl := Except.ok.inj ha
    have hlookup := lookup_recordFields state recordedAt snapshot digest
    exact ⟨Nat.succ_pos _, _, (hstored rfl).stable rt i _ _ s' s'' hrely.1,
      hlookup _ (.int (state.events + 1)) rfl, hlookup _ snapshot rfl, hlookup _ (.str digest) rfl⟩
  · rintro s' e hinv ⟨hlock, -⟩
    exact ⟨hlock, by simp⟩

theorem sat_releaseLock (outcome : Except PyExc Appended) (snapshot : Json) (s : Shared ι)
    (hlock : s.lock = some i) (hstored : ∀ a, outcome = .ok a → Stored rt i snapshot a s) :
    (contract rt).Sat i (Contract.AfterCleanup (fun s' (r : Except PyExc Appended) =>
      ∀ a, r = .ok a → Stored rt i snapshot a s') outcome) releaseLock s := by
  obtain ⟨Q, hQ⟩ : ∃ Q : Shared ι → Prop, Q = fun s => ∀ a, outcome = .ok a → Stored rt i snapshot a s := ⟨_, rfl⟩
  have hstable : ∀ s s', (contract rt).Rely i s s' → Q s → Q s' := by
    intro s s' hrely hq
    rw [hQ] at hq ⊢
    exact fun a ha => (hq a ha).stable rt i _ _ s s' hrely.1
  have hboth : ∀ s s', (contract rt).Rely i s s' → s.lock = some i ∧ Q s → s'.lock = some i ∧ Q s' :=
    fun s s' hrely h => ⟨hrely.2.lock.mp h.1, hstable s s' hrely h.2⟩
  have hq : Q s := by rwa [hQ]
  refine Contract.sat_quiet_bind (Exec.quiet_eq i .closeLock rfl) (fun s => s.lock = some i ∧ Q s) hboth
    ⟨hlock, hq⟩ ?_ fun e s' _ _ => by simp [Contract.AfterCleanup]
  rintro _ s - ⟨hlock, hq⟩
  refine Contract.Sat.catching (M := fun s' (_ : Except PyExc Unit) => Q s') ?_ ?_ ?_
  · refine Contract.sat_perform fun s' hrely hinv r s'' hunlink => ?_
    obtain ⟨hlock', hq'⟩ := hboth s s' hrely ⟨hlock, hq⟩
    cases hunlink with
    | fails e => exact ⟨hinv, (contract rt).guar_refl i s', fun _ hrely' _ => hstable _ _ hrely' hq'⟩
    | unlinkLock j hj =>
        obtain ⟨hinv', hguar⟩ := unlinkLock_step rt i s' hinv hlock'
        refine ⟨hinv', hguar, fun s''' hrely' _ => hstable _ _ hrely' ?_⟩
        rw [hQ] at hq' ⊢
        exact fun a ha => (hq' a ha).stable rt i _ _ s' _ ⟨List.prefix_refl _, List.prefix_refl _⟩
  · intro s' a _ hq'
    rwa [hQ] at hq'
  · intro s' e _ hq'
    split
    · intro s'' hrely _
      have := hstable _ _ hrely hq'
      rwa [hQ] at this
    · exact fun _ _ _ => by simp [Contract.AfterCleanup]

theorem sat_acquireLock (s : Shared ι) (hfresh : i ∉ s.writers) :
    (contract rt).Sat i (fun s' (r : Except PyExc Unit) => r = .ok () → s'.lock = some i ∧ i ∉ s'.writers)
      acquireLock s := by
  refine Contract.Sat.catching (M := fun s' (r : Except PyExc Unit) =>
    r = .ok () → s'.lock = some i ∧ i ∉ s'.writers) ?_ (fun s' u _ h => h) ?_
  · refine Contract.sat_perform fun s' hrely hinv r s'' hcreate => ?_
    have hfresh' : i ∉ s'.writers := fun hmem => hfresh (hrely.2.writers hmem)
    cases hcreate with
    | fails e => exact ⟨hinv, (contract rt).guar_refl i s', fun _ _ _ => by simp⟩
    | createLock hlock =>
        obtain ⟨hinv', hguar⟩ := createLock_step rt i s' hinv hlock
        exact ⟨hinv', hguar, fun s''' hrely' _ _ =>
          ⟨hrely'.2.lock.mp rfl, fun hmem => hfresh' (hrely'.2.writers hmem)⟩⟩
  · intro s' e _ _
    split
    · exact fun _ _ _ => by simp
    · exact fun _ _ _ => by simp

theorem sat_appendSnapshot (pid : Nat) (snapshot : Json) (hsnapshot : Json.Wf snapshot) (s : Shared ι)
    (hfresh : i ∉ s.writers) :
    (contract rt).Sat i (fun s' (r : Except PyExc Appended) => ∀ a, r = .ok a → Stored rt i snapshot a s')
      (appendSnapshot rt pid snapshot) s := by
  refine Contract.sat_quiet_bind (Exec.quiet_eq i .makeParent rfl) (fun s => i ∉ s.writers)
    (fun s s' hrely h hmem => h (hrely.2.writers hmem)) hfresh ?_ fun e s' _ _ => by simp
  intro _ s _ hfresh
  refine (sat_acquireLock rt i s hfresh).bind ?_ fun s' e _ _ => by simp
  intro s u hinv hmid
  obtain ⟨hlock, hfresh⟩ := hmid rfl
  refine Contract.Sat.finishing (sat_lockedAppend rt i pid snapshot hsnapshot s.ledger s ⟨hlock, hfresh, rfl⟩) ?_ ?_
  · exact fun s' r _ ⟨hlock, hstored⟩ => sat_releaseLock rt i r snapshot s' hlock hstored
  · exact fun s' s'' r hrely _ hstored a ha => (hstored a ha).stable rt i _ _ s' s'' hrely.1

end Programs

theorem start_good (rt : Runtime) (pid : ι → Nat) (snapshot : ι → Json.Dict) :
    (contract rt).Good (fun i s (r : Except PyExc Appended) => ∀ a, r = .ok a → Stored rt i (snapshot i).json a s)
      (start rt pid snapshot) where
  inv := ⟨⟨_, rfl⟩, rfl, rfl, rfl, List.nodup_nil⟩
  sat i := sat_appendSnapshot rt i (pid i) (snapshot i).json (snapshot i).wf _ List.not_mem_nil

-- However the calls interleave, fail or stop, the ledger stays valid and only
-- grows, one call at a time is between lock and unlock, and every call that
-- returned has written exactly the record that it reported.
theorem snapshots_serialised (rt : Runtime) (pid : ι → Nat) (snapshot : ι → Json.Dict)
    (p : Pool ι (Shared ι) FileOp FileOp.Res PyExc Appended) (h : system.Reach (start rt pid snapshot) p) :
    (∃ state, verifyLedger rt p.shared.ledger = .ok state) ∧ p.shared.inside.length ≤ 1 ∧
      (∀ i a, p.procs i = .ret a → Stored rt i (snapshot i).json a p.shared) ∧
      p.shared.writers.length = (records rt p.shared.ledger).length ∧ p.shared.writers.Nodup ∧
      ∀ p', system.Step p p' → records rt p.shared.ledger <+: records rt p'.shared.ledger := by
  have hgood := (start_good rt pid snapshot).reach h
  refine ⟨hgood.inv.valid, ?_, fun i a hret => hgood.returned i a hret a rfl, hgood.inv.counted,
    hgood.inv.once, fun p' hstep => ?_⟩
  · rw [hgood.inv.exclusive]
    cases p.shared.lock <;> simp
  · cases hstep with
    | call i op k r s hcall hexec => exact (hgood.guar i op k r s hcall hexec).1.records
    | env s henv => exact henv.elim

-- SHA-256 at the first record of an empty snapshot.
def appendDigest : Digest :=
  ⟨[76, 237, 62, 29, 191, 194, 93, 142, 86, 210, 143, 167, 24, 252, 80, 59, 208, 156, 163, 108, 66, 87,
    25, 24, 242, 83, 56, 202, 151, 130, 173, 77], rfl⟩

def appendInput : Except PyExc Bytes :=
  digestInput sampleRuntime genesis
    (.obj (payloadFields ⟨.emptyLedger, 0, genesis⟩ (py "2026-01-01T00:00:00.000Z") (.obj [])))

def appendRuntime : Runtime where
  sha256 m := if .ok m = appendInput then appendDigest else zeroDigest
  printable _ := true
  nesting := 10

-- The second process tries while the first one holds the lock.
def contendedTurns : List Bool :=
  List.replicate 2 false ++ List.replicate 2 true ++ List.replicate 13 false

def contendedRun : Pool Bool (Shared Bool) FileOp FileOp.Res PyExc Appended :=
  contendedTurns.foldl handler.turn (start appendRuntime (fun _ => 7) fun _ => Json.Dict.empty)

theorem snapshots_serialised_contended :
    contendedRun.procs false = .ret ⟨1, hexdigest appendDigest⟩ ∧
      contendedRun.procs true = .raise lockExists ∧
      Stored appendRuntime false Json.Dict.empty.json ⟨1, hexdigest appendDigest⟩ contendedRun.shared := by
  have hfirst : contendedRun.procs false = .ret ⟨1, hexdigest appendDigest⟩ :=
    (Prog.outcome_eq_ok _ _).mp (by decide +kernel)
  have hsecond : contendedRun.procs true = .raise lockExists := (Prog.outcome_eq_error _ _).mp (by decide +kernel)
  have hrun := snapshots_serialised appendRuntime (fun _ => 7) (fun _ => Json.Dict.empty) contendedRun
    (handler.reach _ _)
  exact ⟨hfirst, hsecond, hrun.2.2.1 false _ hfirst⟩

end V91Core.Measurement
