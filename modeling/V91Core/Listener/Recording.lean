import V91Core.Listener.Verdict

namespace V91Core.Listener

open V91Core.Python V91Core.Effect

variable (cfg : Config) (key : Bytes) (initial : List Row)

section Rely

-- Nothing is recorded or removed: files may arrive, and more may have been read.
structure Grows (s s' : Shared) : Prop where
  database : s'.database = s.database
  inbox : ∀ name content, s.inbox name = some content → s'.inbox name = some content
  clock : s.clock ⊆ s'.clock
  read : s.read ⊆ s'.read
  removed : s'.removed = s.removed

theorem Grows.refl (s : Shared) : Grows s s := ⟨rfl, fun _ _ h => h, fun _ h => h, fun _ h => h, rfl⟩

theorem Grows.trans {s s' s'' : Shared} (h : Grows s s') (h' : Grows s' s'') : Grows s s'' :=
  ⟨h'.database.trans h.database, fun name content hfile => h'.inbox name content (h.inbox name content hfile),
    fun _ hmem => h'.clock (h.clock hmem), fun _ hmem => h'.read (h.read hmem), h'.removed.trans h.removed⟩

-- The tables are those of a log of bookings, and a file that was removed is recorded.
structure Sound (s : Shared) : Prop where
  books : ∃ log, Books cfg key initial s log
  removed : ∀ f ∈ s.removed, Recorded cfg s.database f.2

variable {cfg key initial}

theorem Booking.Justified.grows {s s' : Shared} {b : Booking} (h : b.Justified cfg key s) (hclock : s.clock ⊆ s'.clock)
    (hread : s.read ⊆ s'.read) : b.Justified cfg key s' :=
  ⟨hread h.read, h.entry, fun htrusted => hclock (h.clock htrusted)⟩

theorem Sound.grows {s s' : Shared} (h : Sound cfg key initial s) (hgrows : Grows s s') : Sound cfg key initial s' := by
  obtain ⟨⟨log, hlog⟩, hremoved⟩ := h
  refine ⟨⟨log, hgrows.database.trans hlog.rows, hlog.once, hlog.fresh, fun b hb => ?_⟩, ?_⟩
  · exact (hlog.justified b hb).grows hgrows.clock hgrows.read
  · rw [hgrows.removed, hgrows.database]
    exact hremoved

theorem grows_of_arrival (s s' : Shared) (h : Arrival s s') : Grows s s' ∧ s'.connection = s.connection := by
  obtain ⟨inbox, rfl, hinbox⟩ := h
  exact ⟨⟨rfl, hinbox, fun _ h => h, fun _ h => h, rfl⟩, rfl⟩

theorem exec_grows (s : Shared) (op : ListenerOp) (r : Except PyExc op.Res) (s' : Shared) (h : Exec s op r s')
    (hcommit : op ≠ .commit) (hunlink : ∀ name, op ≠ .unlink name) : Grows s s' := by
  cases h with
  | commit => exact absurd rfl hcommit
  | unlink name => exact absurd rfl (hunlink _)
  | readFile => exact ⟨rfl, fun _ _ h => h, fun _ h => h, fun _ h => List.mem_cons_of_mem _ h, rfl⟩
  | now => exact ⟨rfl, fun _ _ h => h, fun _ h => List.mem_cons_of_mem _ h, fun _ h => h, rfl⟩
  | _ => exact ⟨rfl, fun _ _ h => h, fun _ h => h, fun _ h => h, rfl⟩

variable (cfg key initial)

def contract : Contract system where
  Inv := Sound cfg key initial
  Rely _ s s' := Grows s s' ∧ s'.connection = s.connection
  Guar _ _ _ := True
  rely_refl _ s := ⟨.refl s, rfl⟩
  rely_trans _ _ _ _ h h' := ⟨h.1.trans h'.1, h'.2.trans h.2⟩
  guar_refl _ _ := trivial
  rely_of_guar i j _ _ hne _ := absurd (Subsingleton.elim i j) hne
  inv_of_env _ _ hinv henv := hinv.grows (grows_of_arrival _ _ henv).1
  rely_of_env _ _ _ _ henv := grows_of_arrival _ _ henv

end Rely

section Rules

variable {S : System Unit Shared ListenerOp ListenerOp.Res PyExc} (hsub : S.Sub system)

-- The contract of a listener in a system that does less.
abbrev within : Contract S := (contract cfg key initial).sub hsub

-- A result has this property, and if an exception is raised `T` holds.
def Ends {α : Type} (T : Prop) (Q : α → Shared → Prop) (s : Shared) : Except PyExc α → Prop
  | .ok a => Q a s
  | .error _ => T

def Kept (P : Shared → Prop) : Prop := ∀ s s', Grows s s' → s'.connection = s.connection → P s → P s'

def Steady (P : Shared → Prop) : Prop := ∀ s s', Grows s s' → P s → P s'

variable {cfg key initial hsub} {T : Prop} {P : Shared → Prop} {s : Shared}

theorem Steady.kept (h : Steady P) : Kept P := fun s s' hgrows _ => h s s' hgrows

theorem Kept.and {Q : Shared → Prop} (hP : Kept P) (hQ : Kept Q) : Kept fun s => P s ∧ Q s :=
  fun s s' hgrows hconnection h => ⟨hP s s' hgrows hconnection h.1, hQ s s' hgrows hconnection h.2⟩

theorem kept_connection (rows : Option (List Row)) : Kept fun s => s.connection = rows :=
  fun _ _ _ hconnection h => hconnection.trans h

theorem sat_then {α β : Type} {Q : α → Shared → Prop} {R : β → Shared → Prop} {p : Action α} {f : α → Action β}
    (h : (within cfg key initial hsub).Sat () (Ends T Q) p s)
    (hf : ∀ a s', Q a s' → (within cfg key initial hsub).Sat () (Ends T R) (f a) s') :
    (within cfg key initial hsub).Sat () (Ends T R) (p >>= f) s :=
  Contract.Sat.bind h (fun s' a _ hq => hf a s' hq) fun _ _ _ hT => hT

theorem sat_weaken {α : Type} {Q R : α → Shared → Prop} {p : Action α}
    (h : (within cfg key initial hsub).Sat () (Ends T Q) p s) (hQR : ∀ a s', Q a s' → R a s') :
    (within cfg key initial hsub).Sat () (Ends T R) p s := by
  refine h.mono fun s' r _ hr => ?_
  cases r with
  | ok a => exact hQR a s' hr
  | error e => exact hr

theorem sat_ret {α : Type} {Q : α → Shared → Prop} (a : α) (hQ : Kept (Q a)) (h : Q a s) :
    (within cfg key initial hsub).Sat () (Ends T Q) (.ret a : Action α) s :=
  fun s' hrely _ => hQ s s' hrely.1 hrely.2 h

theorem sat_raise {α : Type} {Q : α → Shared → Prop} (e : PyExc) (h : T) :
    (within cfg key initial hsub).Sat () (Ends T Q) (.raise e : Action α) s := fun _ _ _ => h

theorem sat_lifted {α : Type} {Q : α → Shared → Prop} (x : Except PyExc α) (hok : ∀ a, x = .ok a → Kept (Q a) ∧ Q a s)
    (herror : ∀ e, x = .error e → T) : (within cfg key initial hsub).Sat () (Ends T Q) (Prog.ofExcept x) s := by
  cases x with
  | ok a => exact sat_ret a (hok a rfl).1 (hok a rfl).2
  | error e => exact sat_raise e (herror e rfl)

-- The rule for an operation that neither records nor removes anything.
theorem sat_op {op : ListenerOp} {Q : op.Res → Shared → Prop} (hcommit : op ≠ .commit)
    (hunlink : ∀ name, op ≠ .unlink name) (hP : Kept P) (h : P s) (hQ : ∀ b, Kept (Q b))
    (hok : ∀ s b s', Sound cfg key initial s → P s → S.exec () s op (.ok b) s' → Grows s s' → Q b s')
    (herror : ∀ s e s', Sound cfg key initial s → P s → S.exec () s op (.error e) s' → T) :
    (within cfg key initial hsub).Sat () (Ends T Q) (perform op) s := by
  refine Contract.sat_perform fun s₁ hrely hsound r s₂ hexec => ?_
  have hgrows := exec_grows s₁ op r s₂ (hsub.exec _ _ _ _ _ hexec) hcommit hunlink
  have h₁ := hP s s₁ hrely.1 hrely.2 h
  refine ⟨hsound.grows hgrows, trivial, fun s₃ hrely' _ => ?_⟩
  cases r with
  | ok b => exact hQ b s₂ s₃ hrely'.1 hrely'.2 (hok s₁ b s₂ hsound h₁ hexec hgrows)
  | error e => exact herror s₁ e s₂ hsound h₁ hexec

end Rules

section Operations

variable {cfg key initial}
variable {S : System Unit Shared ListenerOp ListenerOp.Res PyExc} {hsub : S.Sub system} {T : Prop}
variable (hT : ∀ i s op r s', S.exec i s op r s' → T ∨ Smooth s op r) {P : Shared → Prop} {s : Shared}

include hT

theorem sat_quietOp (op : ListenerOp) (hop : op.quiet = true) (hP : Kept P) (h : P s) :
    (within cfg key initial hsub).Sat () (Ends T fun _ s' => P s') (perform op) s := by
  refine sat_op (by rintro rfl; cases hop) (by rintro _ rfl; cases hop) hP h (fun _ => hP) ?_ ?_
  · intro s b s' _ h hexec _
    have hexec := hsub.exec _ _ _ _ _ hexec
    cases hexec with
    | quiet => exact h
    | _ => cases hop
  · intro s e s' _ _ hexec
    refine (hT _ _ _ _ _ hexec).resolve_right fun hsmooth => ?_
    cases op with
    | databaseExists => cases hsmooth
    | uuid4 =>
        obtain ⟨u, hu, -⟩ := hsmooth
        cases hu
    | makeInbox | pragma | utcNow | sleep =>
        obtain ⟨b, hb⟩ := hsmooth
        cases hb
    | _ => cases hop

theorem sat_connect (hP : Steady P) (h : P s) :
    (within cfg key initial hsub).Sat () (Ends T fun _ s' => P s' ∧ s'.connection = some []) (perform .connect) s := by
  refine sat_op (by simp) (by simp) hP.kept h (fun _ => hP.kept.and (kept_connection _)) ?_ ?_
  · intro s b s' _ h hexec hgrows
    have hexec := hsub.exec _ _ _ _ _ hexec
    cases hexec with
    | quiet _ _ hop => cases hop
    | connect => exact ⟨hP _ _ hgrows h, rfl⟩
  · intro s e s' _ _ hexec
    refine (hT _ _ _ _ _ hexec).resolve_right fun hsmooth => ?_
    obtain ⟨b, hb⟩ := hsmooth
    cases hb

theorem sat_isAudited (eventId : PyStr) (hP : Steady P) (h : P s) (hopen : s.connection = some []) :
    (within cfg key initial hsub).Sat () (Ends T fun found s' => P s' ∧ (found = true ↔ Audited s'.database eventId))
      (perform (.isAudited eventId)) s := by
  have hkept : Kept fun s => P s ∧ s.connection = some [] := hP.kept.and (kept_connection _)
  have hpost : ∀ found : Bool, Kept fun s => P s ∧ (found = true ↔ Audited s.database eventId) := by
    rintro found s s' hgrows _ ⟨h, hfound⟩
    exact ⟨hP s s' hgrows h, by rw [hgrows.database]; exact hfound⟩
  refine sat_op (by simp) (by simp) hkept ⟨h, hopen⟩ hpost ?_ ?_
  · rintro s found s' _ ⟨h, hopen⟩ hexec _
    have hexec := hsub.exec _ _ _ _ _ hexec
    cases hexec with
    | quiet _ _ hop => cases hop
    | isAudited _ rows hrows =>
        rw [hopen] at hrows
        obtain rfl := Option.some.inj hrows
        exact ⟨h, by simp⟩
  · rintro s e s' _ ⟨-, hopen⟩ hexec
    refine (hT _ _ _ _ _ hexec).resolve_right fun hsmooth => ?_
    obtain ⟨b, hb⟩ := hsmooth (by simp [hopen])
    cases hb

-- No row of the audit log has this identifier.
def Unused (T : Prop) (u : PlainText) (s : Shared) : Prop :=
  T ∨ ∀ row ∈ s.database, row.table = .auditLog → row.uniqueKey ≠ u.val

omit hT in
theorem Unused.steady (u : PlainText) : Steady (Unused T u) := by
  intro s s' hgrows h
  rw [Unused, hgrows.database]
  exact h

theorem sat_uuid4 (hP : Kept P) (h : P s) :
    (within cfg key initial hsub).Sat () (Ends T fun u s' => P s' ∧ Unused T u s') (perform .uuid4) s := by
  refine sat_op (by simp) (by simp) hP h (fun u => hP.and (Unused.steady u).kept) ?_ ?_
  · intro s u s' _ h hexec _
    have hsmooth := hT _ _ _ _ _ hexec
    have hexec := hsub.exec _ _ _ _ _ hexec
    cases hexec with
    | quiet =>
        refine ⟨h, hsmooth.imp_right ?_⟩
        rintro ⟨u', hu', hfresh⟩
        obtain rfl := Except.ok.inj hu'
        exact hfresh
  · intro s e s' _ _ hexec
    refine (hT _ _ _ _ _ hexec).resolve_right fun hsmooth => ?_
    obtain ⟨u, hu, -⟩ := hsmooth
    cases hu

omit hT in
theorem bindTexts_eq_ok (texts : List PyStr) (h : ∀ t ∈ texts, Encodable t) : bindTexts texts = .ok () := by
  induction texts with
  | nil => rfl
  | cons t texts ih =>
      obtain ⟨ht, htexts⟩ := List.forall_mem_cons.mp h
      obtain ⟨bs, hbs⟩ := Option.isSome_iff_exists.mp ((utf8Encode_isSome t).mpr ht)
      have hencode : encodeUtf8 t = .ok bs := (encodeUtf8_eq_ok t bs).mpr hbs
      have ih := ih htexts
      rw [bindTexts, List.forM_eq_forM] at ih ⊢
      rw [List.forM_cons, hencode]
      exact ih

theorem sat_insertRow (row : Row) (rows : List Row) (hP : Steady P) (h : P s) (hopen : s.connection = some rows)
    (htexts : ∀ t ∈ row.texts, Encodable t)
    (hfree : ∀ s, Sound cfg key initial s → P s → T ∨ ¬Conflicts (s.database ++ rows) row) :
    (within cfg key initial hsub).Sat () (Ends T fun _ s' => P s' ∧ s'.connection = some (rows ++ [row]))
      (insertRow row) s := by
  have hkept : Kept fun s => P s ∧ s.connection = some rows := hP.kept.and (kept_connection _)
  rw [insertRow, bindTexts_eq_ok row.texts htexts]
  refine sat_op (by simp) (by simp) hkept ⟨h, hopen⟩ (fun _ => hP.kept.and (kept_connection _)) ?_ ?_
  · rintro s b s' _ ⟨h, hopen⟩ hexec hgrows
    have hexec := hsub.exec _ _ _ _ _ hexec
    cases hexec with
    | quiet _ _ hop => cases hop
    | insert _ rows' hrows _ =>
        rw [hopen] at hrows
        obtain rfl := Option.some.inj hrows
        exact ⟨hP _ _ hgrows h, rfl⟩
  · rintro s e s' hsound ⟨h, hopen⟩ hexec
    refine (hT _ _ _ _ _ hexec).elim id fun hsmooth => (hfree s hsound h).resolve_right fun hunique => ?_
    cases hsmooth rows hopen hunique

-- A body that starts with an empty transaction.
theorem sat_withDb {α : Type} {body : Action α} {Q : α → Shared → Prop} (hP : Steady P) (h : P s)
    (hQ : ∀ a, Steady (Q a))
    (hbody : ∀ s, P s → s.connection = some [] → (within cfg key initial hsub).Sat () (Ends T Q) body s) :
    (within cfg key initial hsub).Sat () (Ends T Q) (withDb body) s := by
  have hkept : Kept fun s => P s ∧ s.connection = some [] := hP.kept.and (kept_connection _)
  refine sat_then (sat_connect hT hP h) fun _ s h => ?_
  refine sat_then (sat_quietOp hT (.pragma "journal_mode=WAL") rfl hkept h) fun _ s h => ?_
  refine sat_then (sat_quietOp hT (.pragma "foreign_keys=ON") rfl hkept h) fun _ s h => ?_
  refine (hbody s h.1 h.2).finishing ?_ ?_
  · intro s r _ hr
    refine Contract.sat_perform fun s₁ hrely hsound r' s₂ hexec => ?_
    have hgrows := exec_grows s₁ .close r' s₂ (hsub.exec _ _ _ _ _ hexec) (by simp) (by simp)
    refine ⟨hsound.grows hgrows, trivial, fun s₃ hrely' _ => ?_⟩
    cases r' with
    | ok _ =>
        cases r with
        | ok a => exact hQ a s s₃ (hrely.1.trans (hgrows.trans hrely'.1)) hr
        | error e => exact hr
    | error e =>
        refine (hT _ _ _ _ _ hexec).resolve_right fun hsmooth => ?_
        obtain ⟨b, hb⟩ := hsmooth
        cases hb
  · intro s s' r hrely _ hr
    cases r with
    | ok a => exact hQ a s s' hrely.1 hr
    | error e => exact hr

theorem sat_alreadyRecorded (eventId : PyStr) (hid : Encodable eventId) (hP : Steady P) (h : P s) :
    (within cfg key initial hsub).Sat () (Ends T fun found s' => (found = none ∧ T) ∨
      ∃ b, found = some b ∧ P s' ∧ (b = true ↔ Audited s'.database eventId)) (alreadyRecorded eventId) s := by
  have hfound : ∀ found : Bool, Steady fun s => P s ∧ (found = true ↔ Audited s.database eventId) := by
    rintro found s s' hgrows ⟨h, hfound⟩
    exact ⟨hP s s' hgrows h, by rw [hgrows.database]; exact hfound⟩
  have hpost : ∀ found : Option Bool, Kept fun s => (found = none ∧ T) ∨
      ∃ b, found = some b ∧ P s ∧ (b = true ↔ Audited s.database eventId) := by
    rintro found s s' hgrows _ (ht | ⟨b, hb, h⟩)
    · exact .inl ht
    · exact .inr ⟨b, hb, hfound b s s' hgrows h⟩
  unfold alreadyRecorded
  refine Contract.Sat.catching (M := Ends T fun found s' => (found = none ∧ T) ∨
    ∃ b, found = some b ∧ P s' ∧ (b = true ↔ Audited s'.database eventId)) ?_ (fun _ _ _ h => h) ?_
  · refine sat_then (sat_withDb hT hP h hfound fun s h hopen => ?_) fun b s h => ?_
    · rw [bindTexts_eq_ok [eventId] (by simpa using hid)]
      exact sat_isAudited hT eventId hP h hopen
    · exact sat_ret _ (hpost _) (.inr ⟨b, rfl, h⟩)
  · intro s e _ ht
    split
    · exact sat_ret _ (hpost _) (.inl ⟨rfl, ht⟩)
    · exact sat_raise e ht

-- What is known about an event that is going to be recorded.
structure Due (content : Bytes) (now : Nat) (eventId : PyStr) (entry : Entry) (s : Shared) : Prop where
  read : content ∈ s.read
  clock : entry.isTrusted = true → now ∈ s.clock
  new : ¬Audited s.database eventId

omit hT in
theorem Due.steady (content : Bytes) (now : Nat) (eventId : PyStr) (entry : Entry) :
    Steady (Due content now eventId entry) := by
  intro s s' hgrows h
  exact ⟨hgrows.read h.read, fun htrusted => hgrows.clock (h.clock htrusted), by rw [hgrows.database]; exact h.new⟩

omit hT in
theorem audited_of_log {log : List Booking} (hbooks : Books cfg key initial s log) (b : Booking) (hb : b ∈ log) :
    Audited s.database b.eventId := by
  refine ⟨.auditLog b.logId b.eventId b.entry.action (b.entry.detail cfg.hitlThreshold) b.loggedAt, ?_, rfl, rfl⟩
  rw [hbooks.rows]
  exact List.mem_append_right _ (List.mem_flatMap.mpr ⟨b, hb, by simp [Booking.rows]⟩)

omit hT in
-- The two rows of an event that is due keep the tables those of a log.
theorem Sound.commit {b : Booking} (hsound : Sound cfg key initial s)
    (hdue : Due b.content b.checkedAt b.eventId b.entry s)
    (hentry : entryOf cfg key b.content b.checkedAt = .ok (b.eventId, b.entry)) :
    Sound cfg key initial { s with database := s.database ++ b.rows cfg, connection := some [] } := by
  obtain ⟨⟨log, hbooks⟩, hremoved⟩ := hsound
  refine ⟨⟨log ++ [b], ?_, ?_, ?_, ?_⟩, fun f hf => ?_⟩
  · simp [hbooks.rows]
  · rw [List.map_append, List.nodup_append]
    refine ⟨hbooks.once, List.nodup_singleton _, ?_⟩
    rintro id hid id' hid' rfl
    obtain ⟨b', hb', hid⟩ := List.mem_map.mp hid
    obtain rfl := List.mem_singleton.mp hid'
    exact hdue.new (hid ▸ audited_of_log hbooks b' hb')
  · intro b' hb'
    rcases List.mem_append.mp hb' with hb' | hb'
    · exact hbooks.fresh b' hb'
    · obtain rfl := List.mem_singleton.mp hb'
      rintro ⟨row, hrow, haudit⟩
      exact hdue.new ⟨row, hbooks.rows ▸ List.mem_append_left _ hrow, haudit⟩
  · intro b' hb'
    rcases List.mem_append.mp hb' with hb' | hb'
    · exact (hbooks.justified b' hb').grows (fun _ h => h) fun _ h => h
    · obtain rfl := List.mem_singleton.mp hb'
      exact ⟨hdue.read, hentry, hdue.clock⟩
  · obtain ⟨eventId, hid, row, hrow, haudit⟩ := hremoved f hf
    exact ⟨eventId, hid, row, List.mem_append_left _ hrow, haudit⟩

end Operations

section Entries

-- The insertions and the commit of an event that is recorded as this entry.
def insertEntry (eventId rawText rawHash : PyStr) (entry : Entry) : Action Unit := do
  let now ← perform .utcNow
  insertRow (entry.row eventId rawText rawHash now.val)

def recordEntry (eventId rawText rawHash : PyStr) (entry : Entry) : Action Unit :=
  withDb do
    insertEntry eventId rawText rawHash entry
    insertAuditLog eventId entry.action (entry.detail cfg.hitlThreshold)
    perform .commit

theorem quarantineFile_eq (name eventId reason rawText rawHash : PyStr) :
    quarantineFile name eventId reason rawText rawHash = (do
      let recorded ← (recordEntry cfg eventId rawText rawHash (.quarantined reason)).attempt
      match recorded with
      | .ok () => removeInboxFile name
      | .error e => if e = .sqliteError then return () else .raise e) := rfl

theorem bookEvent_eq (eventId rawText rawHash : PyStr) (payload : List (PyStr × Json)) (entry : Entry)
    (h : routed cfg payload = .ok entry) :
    bookEvent cfg eventId rawHash payload = recordEntry cfg eventId rawText rawHash entry := by
  obtain ⟨confidence, hconfidence, h⟩ := (bind_eq_ok _ _ _).mp h
  obtain ⟨payloadJson, hjson, h⟩ := (bind_eq_ok _ _ _).mp h
  have h := Except.ok.inj h
  rw [bookEvent, hconfidence, hjson]
  show withDb (if _ then _ else _) = _
  split at h
  · next hlow =>
      rw [if_pos hlow, ← h]
      rfl
  · next hlow =>
      rw [if_neg hlow, ← h]
      rfl

theorem Entry.row_table (entry : Entry) (eventId rawText rawHash time : PyStr) :
    (entry.row eventId rawText rawHash time).table ≠ .auditLog := by
  cases entry <;> simp [Entry.row, Row.table]

theorem Entry.row_uniqueKey (entry : Entry) (eventId rawText rawHash time : PyStr) :
    (entry.row eventId rawText rawHash time).uniqueKey = eventId := by
  cases entry <;> rfl

theorem Row.uniqueKey_eq (row : Row) (h : row.table ≠ .auditLog) : row.uniqueKey = row.eventId := by
  cases row with
  | auditLog => exact absurd rfl h
  | _ => rfl

theorem Entry.row_texts (entry : Entry) (eventId rawText rawHash time : PyStr) (hentry : entry.Encodable)
    (hid : Listener.Encodable eventId) (htext : Listener.Encodable rawText) (hhash : Listener.Encodable rawHash)
    (htime : Listener.Encodable time) :
    ∀ t ∈ (entry.row eventId rawText rawHash time).texts, Listener.Encodable t := by
  cases entry with
  | quarantined reason =>
      simp only [Entry.row, Row.texts, List.forall_mem_cons]
      exact ⟨hid, hentry, htext, hhash, htime, by simp⟩
  | queued eventType source payloadJson confidence =>
      obtain ⟨htype, hsource, hjson⟩ := hentry
      simp only [Entry.row, Row.texts, List.forall_mem_cons]
      exact ⟨hid, htype, hsource, hjson, htime, by simp⟩
  | accepted eventType source payloadJson confidence =>
      obtain ⟨htype, hsource, hjson⟩ := hentry
      simp only [Entry.row, Row.texts, List.forall_mem_cons]
      exact ⟨hid, htype, hsource, hjson, hhash, htime, by simp⟩

theorem Entry.encodable_detail (threshold : Float) (entry : Entry) (h : entry.Encodable) :
    Listener.Encodable (entry.detail threshold) := by
  cases entry with
  | quarantined reason => exact h
  | queued =>
      simp only [Entry.detail, encodable_append]
      exact ⟨⟨⟨encodable_py _, encodable_formatFixed _ _⟩, encodable_py _⟩, encodable_reprFloat _⟩
  | accepted => exact (encodable_append _ _).mpr ⟨encodable_py _, encodable_formatFixed _ _⟩

theorem Entry.encodable_action (entry : Entry) : Listener.Encodable entry.action := by
  cases entry <;> exact encodable_py _

theorem PlainText.encodable (text : PlainText) : Encodable text.val := encodable_ascii _ text.property

end Entries

section Processing

variable {cfg key initial}
variable {S : System Unit Shared ListenerOp ListenerOp.Res PyExc} {hsub : S.Sub system} {T : Prop}
variable (hT : ∀ i s op r s', S.exec i s op r s' → T ∨ Smooth s op r)
variable (hcovered : T ∨ ∀ row ∈ initial, Audited initial row.eventId)
variable {name : PyStr} {content : Bytes} {s : Shared}

-- Every row belongs to an event of the audit log.
theorem Sound.covered (hsound : Sound cfg key initial s) (hcovered : ∀ row ∈ initial, Audited initial row.eventId) :
    ∀ row ∈ s.database, Audited s.database row.eventId := by
  obtain ⟨log, hbooks⟩ := hsound.books
  intro row hrow
  rw [hbooks.rows] at hrow
  rcases List.mem_append.mp hrow with hrow | hrow
  · obtain ⟨audit, haudit, h⟩ := hcovered row hrow
    exact ⟨audit, hbooks.rows ▸ List.mem_append_left _ haudit, h⟩
  · obtain ⟨b, hb, hrow⟩ := List.mem_flatMap.mp hrow
    have haudited := audited_of_log hbooks b hb
    rcases List.mem_pair.mp hrow with rfl | rfl
    · cases hentry : b.entry <;> exact haudited
    · exact haudited

theorem steady_has : Steady fun s => s.inbox name = some content := fun _ _ hgrows h => hgrows.inbox name content h

include hT

theorem sat_commit {b : Booking} (hentry : entryOf cfg key b.content b.checkedAt = .ok (b.eventId, b.entry))
    (h : Due b.content b.checkedAt b.eventId b.entry s ∧ s.inbox name = some content)
    (hopen : s.connection = some (b.rows cfg)) :
    (within cfg key initial hsub).Sat ()
      (Ends T fun _ s' => Audited s'.database b.eventId ∧ s'.inbox name = some content) (perform .commit) s := by
  refine Contract.sat_perform fun s₁ hrely hsound r s₂ hexec => ?_
  have hdue := Due.steady _ _ _ _ s s₁ hrely.1 h.1
  have hfile := hrely.1.inbox name content h.2
  have hopen₁ := hrely.2.trans hopen
  have hsmooth := hT _ _ _ _ _ hexec
  have hexec := hsub.exec _ _ _ _ _ hexec
  cases hexec with
  | quiet _ _ hop => cases hop
  | fails _ e =>
      refine ⟨hsound, trivial, fun s₃ _ _ => hsmooth.resolve_right fun hsmooth => ?_⟩
      cases hsmooth (by simp [hopen₁])
  | commit rows hrows =>
      rw [hopen₁] at hrows
      obtain rfl := Option.some.inj hrows
      refine ⟨hsound.commit hdue hentry, trivial, fun s₃ hrely' _ => ⟨?_, hrely'.1.inbox name content hfile⟩⟩
      rw [hrely'.1.database]
      refine ⟨_, List.mem_append_right _ (List.mem_cons_of_mem _ (List.mem_singleton_self _)), rfl, rfl⟩

include hcovered

-- An event that is due gets its two rows.
theorem sat_recordEntry {now : Nat} {eventId : PyStr} {entry : Entry}
    (hentry : entryOf cfg key content now = .ok (eventId, entry))
    (h : Due content now eventId entry s ∧ s.inbox name = some content) :
    (within cfg key initial hsub).Sat () (Ends T fun _ s' => Audited s'.database eventId ∧ s'.inbox name = some content)
      (recordEntry cfg eventId (decodeReplace content) (cfg.rt.sha256Hex content) entry) s := by
  obtain ⟨hid, hencodable⟩ := entryOf_encodable content now eventId entry hentry
  have hfacts : Steady fun s => Due content now eventId entry s ∧ s.inbox name = some content :=
    fun s s' hgrows h => ⟨Due.steady content now eventId entry s s' hgrows h.1, steady_has s s' hgrows h.2⟩
  have hpost : Steady fun s => Audited s.database eventId ∧ s.inbox name = some content := by
    rintro s s' hgrows ⟨haudited, hfile⟩
    exact ⟨by rw [hgrows.database]; exact haudited, hgrows.inbox name content hfile⟩
  refine sat_withDb hT hfacts h (fun _ => hpost) fun s h hopen => ?_
  have hkept := hfacts.kept.and (kept_connection (some []))
  refine sat_then (Q := fun _ s => ∃ time : PlainText, (Due content now eventId entry s ∧ s.inbox name = some content) ∧
    s.connection = some [entry.row eventId (decodeReplace content) (cfg.rt.sha256Hex content) time.val]) ?_ ?_
  · refine sat_then (sat_quietOp hT .utcNow rfl hkept ⟨h, hopen⟩) fun time s h => ?_
    refine sat_weaken (sat_insertRow hT _ [] hfacts h.1 h.2 ?_ ?_) fun _ s h => ⟨time, h⟩
    · exact entry.row_texts _ _ _ _ hencodable hid (decodeReplace_encodable content) (encodable_hexdigest _)
        time.encodable
    · intro s hsound h
      refine hcovered.imp_right fun hcovered => ?_
      rintro ⟨other, hother, htable, hkey⟩
      rw [List.append_nil] at hother
      rw [entry.row_uniqueKey, other.uniqueKey_eq (by rw [htable]; exact entry.row_table _ _ _ _)] at hkey
      exact h.1.new (hkey ▸ hsound.covered hcovered other hother)
  · rintro _ s ⟨time, h, hopen⟩
    refine sat_then (Q := fun _ s => ∃ logId loggedAt : PlainText,
      (Due content now eventId entry s ∧ s.inbox name = some content) ∧
        s.connection = some (Booking.rows cfg ⟨content, now, eventId, entry, time.val, logId.val, loggedAt.val⟩)) ?_ ?_
    · have hopened : Kept fun s => (Due content now eventId entry s ∧ s.inbox name = some content) ∧
          s.connection = some [entry.row eventId (decodeReplace content) (cfg.rt.sha256Hex content) time.val] :=
        hfacts.kept.and (kept_connection _)
      refine sat_then (sat_uuid4 hT hopened ⟨h, hopen⟩) fun logId s h => ?_
      refine sat_then (sat_quietOp hT .utcNow rfl (hopened.and (Unused.steady logId).kept) h) fun loggedAt s h => ?_
      have hunused : Steady fun s => (Due content now eventId entry s ∧ s.inbox name = some content) ∧
          Unused T logId s :=
        fun s s' hgrows h => ⟨hfacts s s' hgrows h.1, Unused.steady logId s s' hgrows h.2⟩
      refine sat_weaken (sat_insertRow hT _ _ hunused ⟨h.1.1, h.2⟩ h.1.2 ?_ ?_) fun _ s h =>
        ⟨logId, loggedAt, h.1.1, h.2⟩
      · simp only [Row.texts, List.forall_mem_cons]
        exact ⟨logId.encodable, hid, entry.encodable_action, entry.encodable_detail _ hencodable,
          loggedAt.encodable, by simp⟩
      · rintro s - ⟨-, hfree⟩
        refine hfree.imp_right fun hfree => ?_
        rintro ⟨other, hother, htable, hkey⟩
        rcases List.mem_append.mp hother with hother | hother
        · exact hfree other hother htable hkey
        · obtain rfl := List.mem_singleton.mp hother
          exact entry.row_table _ _ _ _ htable
    · rintro _ s ⟨logId, loggedAt, h, hopen⟩
      exact sat_commit hT hentry h hopen

-- The file has been removed, and its event is recorded.
def Removed (cfg : Config) (name : PyStr) (content : Bytes) (s : Shared) : Prop :=
  (name, content) ∈ s.removed ∧ Recorded cfg s.database content

omit hT hcovered in
theorem Removed.steady : Steady (Removed cfg name content) := by
  rintro s s' hgrows ⟨hremoved, hrecorded⟩
  exact ⟨by rw [hgrows.removed]; exact hremoved, by rw [hgrows.database]; exact hrecorded⟩

omit hcovered in
-- A file that is recorded may be removed.
theorem sat_removeInboxFile (h : Recorded cfg s.database content ∧ s.inbox name = some content) :
    (within cfg key initial hsub).Sat () (fun s' _ => T ∨ Removed cfg name content s')
      (removeInboxFile name) s := by
  refine Contract.Sat.catching (M := Ends T fun _ s' => Removed cfg name content s') ?_ (fun _ _ _ h => .inr h) ?_
  · refine Contract.sat_perform fun s₁ hrely hsound r s₂ hexec => ?_
    have hfile := hrely.1.inbox name content h.2
    have hrecorded : Recorded cfg s₁.database content := by
      rw [hrely.1.database]
      exact h.1
    have hsmooth := hT _ _ _ _ _ hexec
    have hexec := hsub.exec _ _ _ _ _ hexec
    cases hexec with
    | quiet _ _ hop => cases hop
    | fails _ e =>
        refine ⟨hsound, trivial, fun s₃ _ _ => hsmooth.resolve_right fun hsmooth => ?_⟩
        cases hsmooth (by simp [hfile])
    | unlink _ content' hfile' =>
        rw [hfile] at hfile'
        obtain rfl := Option.some.inj hfile'
        refine ⟨⟨?_, ?_⟩, trivial, fun s₃ hrely' _ => ?_⟩
        · obtain ⟨log, hbooks⟩ := hsound.books
          exact ⟨log, hbooks.rows, hbooks.once, hbooks.fresh, fun b hb =>
            (hbooks.justified b hb).grows (fun _ h => h) fun _ h => h⟩
        · exact List.forall_mem_cons.mpr ⟨hrecorded, hsound.removed⟩
        · exact Removed.steady _ s₃ hrely'.1 ⟨List.mem_cons_self, hrecorded⟩
  · intro s' e _ ht
    split
    · exact fun _ _ _ => .inl ht
    · exact fun _ _ _ => .inl ht

theorem sat_quarantineFile {now : Nat} {eventId reason : PyStr}
    (hentry : entryOf cfg key content now = .ok (eventId, .quarantined reason))
    (h : Due content now eventId (.quarantined reason) s ∧ s.inbox name = some content) :
    (within cfg key initial hsub).Sat () (fun s' _ => T ∨ Removed cfg name content s')
      (quarantineFile name eventId reason (decodeReplace content) (cfg.rt.sha256Hex content)) s := by
  rw [quarantineFile_eq cfg]
  refine (sat_recordEntry hT hcovered hentry h).attempt.bind ?_ ?_
  · rintro s' answer _ ⟨outcome, houtcome, hrecorded⟩
    obtain rfl := Except.ok.inj houtcome
    cases answer with
    | ok _ =>
        exact sat_removeInboxFile hT
          ⟨⟨eventId, eventIdOf_of_entryOf content now eventId _ hentry, hrecorded.1⟩, hrecorded.2⟩
    | error e =>
        dsimp only
        split
        · exact fun _ _ _ => .inl hrecorded
        · exact fun _ _ _ => .inl hrecorded
  · rintro s' e _ ⟨outcome, houtcome, -⟩
    cases houtcome

omit hcovered in
theorem sat_recordOnce {post : Shared → Except PyExc Unit → Prop} {eventId : PyStr} {record : Action Unit}
    (hid : eventIdOf cfg content = .ok eventId) (hencodable : Encodable eventId)
    (h : content ∈ s.read ∧ s.inbox name = some content) (hpost : ∀ s' r, T ∨ Removed cfg name content s' → post s' r)
    (hrecord : ∀ s, content ∈ s.read → s.inbox name = some content → ¬Audited s.database eventId →
      (within cfg key initial hsub).Sat () post record s) :
    (within cfg key initial hsub).Sat () post (recordOnce name eventId record) s := by
  have hfacts : Steady fun s => content ∈ s.read ∧ s.inbox name = some content :=
    fun s s' hgrows h => ⟨hgrows.read h.1, hgrows.inbox name content h.2⟩
  refine (sat_alreadyRecorded hT eventId hencodable hfacts h).bind ?_ ?_
  · rintro s' found _ (⟨rfl, ht⟩ | ⟨b, rfl, ⟨hread, hfile⟩, hb⟩)
    · exact fun s'' _ _ => hpost s'' _ (.inl ht)
    · cases b with
      | false => exact hrecord s' hread hfile fun haudited => by cases hb.mpr haudited
      | true => exact (sat_removeInboxFile hT ⟨⟨eventId, hid, hb.mp rfl⟩, hfile⟩).mono fun s' r _ h => hpost s' r h
  · exact fun s' e _ ht => hpost s' _ (.inl ht)

omit hcovered in
-- The check reads the clock if it accepts the event.
theorem sat_safesignalCheck {P : Shared → Prop} (hP : Steady P) (event : Json) (h : P s) :
    (within cfg key initial hsub).Sat () (fun s' r => P s' ∧
      match r with
      | .ok verdict => ∃ now, checkAt cfg key event now = .ok verdict ∧ (verdict = .ok () → now ∈ s'.clock)
      | .error _ => T ∨ ∀ now verdict, checkAt cfg key event now ≠ .ok verdict) (safesignalCheck cfg key event) s := by
  unfold safesignalCheck
  cases henvelope : readEnvelope cfg event with
  | error reason =>
      refine fun s' hrely _ => ⟨hP s s' hrely.1 h, 0, ?_, by simp⟩
      rw [checkAt, henvelope]
  | ok envelope =>
      refine Contract.sat_ofExcept_cases (fun signedBytes hbytes => ?_) fun e hbytes s' hrely _ => ?_
      swap
      · exact ⟨hP s s' hrely.1 h, .inr fun now verdict => by simp [checkAt, henvelope, hbytes]⟩
      refine Contract.sat_ofExcept_cases (fun valid hverify => ?_) fun e hverify s' hrely _ => ?_
      swap
      · exact ⟨hP s s' hrely.1 h, .inr fun now verdict => by simp [checkAt, henvelope, hbytes, hverify]⟩
      have hcheck : ∀ now, checkAt cfg key event now =
          .ok (if valid then checkAge now envelope else .error (py "signature mismatch")) := fun now => by
        simp only [checkAt, henvelope, hbytes, hverify, ok_bind]
        rfl
      cases valid with
      | false =>
          exact fun s' hrely _ => ⟨hP s s' hrely.1 h, 0, hcheck 0, fun hok => by cases hok⟩
      | true =>
          refine Contract.Sat.bind (M := fun s' r => P s' ∧
            match r with
            | .ok now => now ∈ s'.clock
            | .error _ => T) ?_ ?_ ?_
          · refine Contract.sat_perform fun s₁ hrely hsound r s₂ hexec => ?_
            have hgrows := exec_grows s₁ .now r s₂ (hsub.exec _ _ _ _ _ hexec) (by simp) (by simp)
            have hsmooth := hT _ _ _ _ _ hexec
            have hexec := hsub.exec _ _ _ _ _ hexec
            refine ⟨hsound.grows hgrows, trivial, fun s₃ hrely' _ => ⟨?_, ?_⟩⟩
            · exact hP s s₃ (hrely.1.trans (hgrows.trans hrely'.1)) h
            · cases hexec with
              | quiet _ _ hop => cases hop
              | fails _ e =>
                  refine hsmooth.resolve_right fun hsmooth => ?_
                  obtain ⟨b, hb⟩ := hsmooth
                  cases hb
              | now t => exact hrely'.1.clock List.mem_cons_self
          · intro s' now _ h
            exact fun s'' hrely _ => ⟨hP s' s'' hrely.1 h.1, now, hcheck now, fun _ => hrely.1.clock h.2⟩
          · exact fun s' e _ h => ⟨h.1, .inl h.2⟩

-- The file is gone if its content can be recorded. Otherwise it stays unless its
-- identifier has been recorded.
structure Handled (cfg : Config) (name : PyStr) (content : Bytes) (s : Shared) : Prop where
  gone : Drainable cfg content → (name, content) ∈ s.removed
  stays : ¬Drainable cfg content → s.inbox name = some content ∨ Recorded cfg s.database content

omit hT hcovered in
theorem handled_of_removed {now : Nat} {booked : PyStr × Entry} (hentry : entryOf cfg key content now = .ok booked)
    (h : T ∨ Removed cfg name content s) : T ∨ Handled cfg name content s :=
  h.imp_right fun hremoved =>
    ⟨fun _ => hremoved.1, fun hnot => absurd ((entryOf_isOk_iff content now).mp ⟨booked, hentry⟩) hnot⟩

omit hT hcovered in
theorem handled_of_stays (hnot : ¬Drainable cfg content) (hfile : s.inbox name = some content) :
    Handled cfg name content s :=
  ⟨fun hdrainable => absurd hdrainable hnot, fun _ => .inl hfile⟩

theorem sat_bookEvent {now : Nat} {eventId : PyStr} {entry : Entry} (payload : List (PyStr × Json))
    (hrouted : routed cfg payload = .ok entry) (hentry : entryOf cfg key content now = .ok (eventId, entry))
    (h : Due content now eventId entry s ∧ s.inbox name = some content) :
    (within cfg key initial hsub).Sat () (fun s' _ => T ∨ Removed cfg name content s')
      (bookEvent cfg eventId (cfg.rt.sha256Hex content) payload >>= fun _ => removeInboxFile name) s := by
  rw [bookEvent_eq cfg eventId (decodeReplace content) _ payload entry hrouted]
  refine (sat_recordEntry hT hcovered hentry h).bind ?_ fun s' e _ ht => .inl ht
  exact fun s' _ _ hrecorded =>
    sat_removeInboxFile hT ⟨⟨eventId, eventIdOf_of_entryOf content now eventId _ hentry, hrecorded.1⟩, hrecorded.2⟩

theorem sat_processEvent (event : Json) (canonical : Bytes) (hload : loadsBytes cfg.rt content = .ok event)
    (hcanonical : canonicalBytes cfg.rt event = .ok canonical) (hread : content ∈ s.read)
    (hfile : s.inbox name = some content) (hnew : ¬Audited s.database (cfg.rt.sha256Hex canonical)) :
    (within cfg key initial hsub).Sat () (fun s' _ => T ∨ Handled cfg name content s')
      (processEvent cfg key name content event (cfg.rt.sha256Hex canonical)) s := by
  have hclean := clean_of_canonical _ _ _ hcanonical
  have hentryOf : ∀ now entry, entryOfEvent cfg key event now = .ok entry →
      entryOf cfg key content now = .ok (cfg.rt.sha256Hex canonical, entry) := by
    intro now entry hentry
    simp only [entryOf, hload, hcanonical, hentry, ok_bind]
    rfl
  have hfacts : Steady fun s => (content ∈ s.read ∧ s.inbox name = some content) ∧
      ¬Audited s.database (cfg.rt.sha256Hex canonical) :=
    fun s s' hgrows h => ⟨⟨hgrows.read h.1.1, hgrows.inbox name content h.1.2⟩, by rw [hgrows.database]; exact h.2⟩
  refine (sat_safesignalCheck hT hfacts event ⟨⟨hread, hfile⟩, hnew⟩).bind ?_ ?_
  · rintro s' verdict _ ⟨⟨⟨hread, hfile⟩, hnew⟩, now, hcheck, hclock⟩
    have hquarantine : ∀ reason, entryOfEvent cfg key event now = .ok (.quarantined reason) →
        (within cfg key initial hsub).Sat () (fun s' _ => T ∨ Handled cfg name content s')
          (quarantineFile name (cfg.rt.sha256Hex canonical) reason (decodeReplace content)
            (cfg.rt.sha256Hex content)) s' := by
      intro reason hentry
      have hdue : Due content now (cfg.rt.sha256Hex canonical) (.quarantined reason) s' :=
        ⟨hread, by simp [Entry.isTrusted], hnew⟩
      exact (sat_quarantineFile hT hcovered (hentryOf now _ hentry) ⟨hdue, hfile⟩).mono
        fun _ _ _ h => handled_of_removed (hentryOf now _ hentry) h
    cases verdict with
    | error reason =>
        refine hquarantine _ ?_
        unfold entryOfEvent
        rw [hcheck]
        rfl
    | ok _ =>
        cases event with
        | obj fields =>
            dsimp only
            split
            · next reason hvalid =>
                refine hquarantine _ ?_
                simp only [entryOfEvent, hcheck, ok_bind, hvalid]
                rfl
            · next payload hvalid =>
                obtain ⟨hpayload, hshaped⟩ := validatePayload_shaped _ _ hvalid
                have hpayloadClean := (hclean.get "payload").le (Nat.sub_le _ _)
                rw [hpayload] at hpayloadClean
                obtain ⟨entry, hrouted⟩ := routed_isOk payload hpayloadClean hshaped
                have hentry : entryOfEvent cfg key (.obj fields) now = .ok entry := by
                  simp only [entryOfEvent, hcheck, ok_bind, hvalid, hrouted]
                refine (sat_bookEvent hT hcovered payload hrouted (hentryOf now _ hentry)
                  ⟨⟨hread, fun _ => hclock rfl, hnew⟩, hfile⟩).mono ?_
                exact fun _ _ _ h => handled_of_removed (hentryOf now _ hentry) h
        | _ =>
            refine hquarantine _ ?_
            simp only [entryOfEvent, hcheck, ok_bind]
            rfl
  · rintro s' e _ ⟨⟨⟨-, hfile⟩, -⟩, hfails⟩
    refine hfails.imp_right fun hfails => handled_of_stays (fun hdrainable => ?_) hfile
    obtain ⟨booked, hbooked⟩ : ∃ booked, entryOf cfg key content 0 = .ok booked :=
      (entryOf_isOk_iff content 0).mpr hdrainable
    simp only [entryOf, hload, hcanonical, ok_bind] at hbooked
    obtain ⟨entry, hentry, -⟩ := (bind_eq_ok _ _ _).mp hbooked
    obtain ⟨verdict, hverdict, -⟩ := (bind_eq_ok _ _ _).mp hentry
    exact absurd hverdict (hfails 0 verdict)

-- What is done with a file that has been read.
theorem sat_readFile (name : PyStr) (h : content ∈ s.read ∧ s.inbox name = some content) :
    (within cfg key initial hsub).Sat () (fun s' _ => T ∨ Handled cfg name content s')
      (match loadsBytes cfg.rt content with
        | .error (.jsonDecode msg pos) => recordOnce name (cfg.rt.sha256Hex content)
            (quarantineFile name (cfg.rt.sha256Hex content) (parseReason content msg pos) (decodeReplace content)
              (cfg.rt.sha256Hex content))
        | .error e => .raise e
        | .ok event => do
            let canonical ← Prog.ofExcept (canonicalBytes cfg.rt event)
            recordOnce name (cfg.rt.sha256Hex canonical)
              (processEvent cfg key name content event (cfg.rt.sha256Hex canonical))) s := by
  have hstays : ¬Drainable cfg content → ∀ e, (within cfg key initial hsub).Sat ()
      (fun s' _ => T ∨ Handled cfg name content s') (.raise e : Action Unit) s := fun hnot e s' hrely _ =>
    .inr (handled_of_stays hnot (hrely.1.inbox name content h.2))
  cases hload : loadsBytes cfg.rt content with
  | error e =>
      cases e with
      | jsonDecode msg pos =>
          have hentry : entryOf cfg key content 0 =
              .ok (cfg.rt.sha256Hex content, .quarantined (parseReason content msg pos)) := by
            rw [entryOf, hload]
          refine sat_recordOnce hT (eventIdOf_of_entryOf content 0 _ _ hentry) (encodable_hexdigest _) h
            (fun _ _ hgone => handled_of_removed hentry hgone) fun s hread hfile hnew => ?_
          have hdue : Due content 0 (cfg.rt.sha256Hex content) (.quarantined (parseReason content msg pos)) s :=
            ⟨hread, by simp [Entry.isTrusted], hnew⟩
          exact (sat_quarantineFile hT hcovered hentry ⟨hdue, hfile⟩).mono fun _ _ _ h => handled_of_removed hentry h
      | _ =>
          refine hstays (fun hdrainable => ?_) _
          rw [Drainable, hload] at hdrainable
          obtain ⟨msg, pos, h⟩ := hdrainable
          cases h
  | ok event =>
      have hdrainable : Drainable cfg content ↔ event.AllChars (fun c => c.isSurrogate = false) ∧
          ∀ e, readEnvelope cfg event = .ok e → e.Checkable cfg := by
        rw [Drainable, hload]
      dsimp only
      cases hcanonical : canonicalBytes cfg.rt event with
      | error e =>
          refine hstays (fun hdrained => ?_) e
          have hclean : Clean cfg.rt.nesting event := ⟨(loadsBytes_sound _ _ _ hload).2, (hdrainable.mp hdrained).1⟩
          obtain ⟨bs, hbs⟩ := (canonicalBytes_isOk_iff _ _).mpr hclean
          rw [hbs] at hcanonical
          cases hcanonical
      | ok canonical =>
          have hid : eventIdOf cfg content = .ok (cfg.rt.sha256Hex canonical) := by
            rw [eventIdOf, hload]
            simp only [hcanonical]
            rfl
          exact sat_recordOnce hT hid (encodable_hexdigest _) h
            (fun _ _ hgone => hgone.imp_right fun hgone => ⟨fun _ => hgone.1, fun _ => .inr hgone.2⟩)
            fun s hread hfile hnew => sat_processEvent hT hcovered event canonical hload hcanonical hread hfile hnew

-- Of a file that was there when the program started.
theorem sat_processFile (name : PyStr) (s : Shared) : (within cfg key initial hsub).Sat ()
    (fun s' _ => ∀ content, s.inbox name = some content → T ∨ Handled cfg name content s')
      (processFile cfg key name) s := by
  refine Contract.Sat.bind (M := fun s' r => match r with
    | .ok content => (content ∈ s'.read ∧ s'.inbox name = some content) ∧
      ∀ content', s.inbox name = some content' → content' = content
    | .error _ => ∀ content, s.inbox name = some content → T) ?_ ?_ fun s' e _ ht content hfile =>
      .inl (ht content hfile)
  · refine Contract.sat_perform fun s₁ hrely hsound r s₂ hexec => ?_
    have hgrows := exec_grows s₁ (.readFile name) r s₂ (hsub.exec _ _ _ _ _ hexec) (by simp) (by simp)
    have hsmooth := hT _ _ _ _ _ hexec
    have hexec := hsub.exec _ _ _ _ _ hexec
    refine ⟨hsound.grows hgrows, trivial, fun s₃ hrely' _ => ?_⟩
    cases hexec with
    | quiet _ _ hop => cases hop
    | fails _ e =>
        intro content hcontent
        refine hsmooth.resolve_right fun hsmooth => ?_
        obtain ⟨b, hb⟩ := hsmooth (by simp [hrely.1.inbox name content hcontent])
        cases hb
    | readFile _ content hcontent =>
        refine ⟨⟨hrely'.1.read List.mem_cons_self, hrely'.1.inbox name content hcontent⟩, fun content' hcontent' => ?_⟩
        have hsame := hrely.1.inbox name content' hcontent'
        rw [hcontent] at hsame
        exact (Option.some.inj hsame).symm
  · rintro s' content _ ⟨h, hsame⟩
    refine Contract.Sat.mono (sat_readFile hT hcovered name h) fun s'' _ _ hsettled content' hcontent' => ?_
    exact hsame content' hcontent' ▸ hsettled

end Processing

end V91Core.Listener
