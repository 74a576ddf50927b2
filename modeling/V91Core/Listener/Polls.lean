import V91Core.Listener.Recording

namespace V91Core.Listener

open V91Core.Python V91Core.Effect

section Only

variable (cfg : Config) (key : Bytes)

-- No other file is removed.
def RemovesOnly (name : PyStr) (op : ListenerOp) : Prop := ∀ other, op = .unlink other → other = name

variable {name : PyStr}

theorem only_op (op : ListenerOp) (hop : ∀ other, op ≠ .unlink other) : (perform op).Only (RemovesOnly name) :=
  Prog.only_perform op fun other h => absurd h (hop other)

theorem only_withDb {α : Type} {body : Action α} (hbody : body.Only (RemovesOnly name)) :
    (withDb body).Only (RemovesOnly name) :=
  (only_op .connect (by simp)).bind fun _ => (only_op _ (by simp)).bind fun _ => (only_op _ (by simp)).bind fun _ =>
    hbody.finishing (only_op .close (by simp))

theorem only_insertRow (row : Row) : (insertRow row).Only (RemovesOnly name) :=
  (Prog.only_ofExcept _).bind fun _ => only_op _ (by simp)

theorem only_insertEntry (eventId rawText rawHash : PyStr) (entry : Entry) :
    (insertEntry eventId rawText rawHash entry).Only (RemovesOnly name) :=
  (only_op .utcNow (by simp)).bind fun _ => only_insertRow _

theorem only_insertAuditLog (eventId action detail : PyStr) :
    (insertAuditLog eventId action detail).Only (RemovesOnly name) :=
  (only_op .uuid4 (by simp)).bind fun _ => (only_op .utcNow (by simp)).bind fun _ => only_insertRow _

theorem only_removeInboxFile : (removeInboxFile name).Only (RemovesOnly name) := by
  refine (Prog.only_perform (ListenerOp.unlink name) fun other h => ?_).catching fun e => ?_
  · exact (ListenerOp.unlink.inj h).symm
  · split <;> trivial

theorem only_quarantineFile (eventId reason rawText rawHash : PyStr) :
    (quarantineFile name eventId reason rawText rawHash).Only (RemovesOnly name) := by
  refine (only_withDb ?_).attempt.bind fun recorded => ?_
  · exact (only_insertEntry eventId rawText rawHash (.quarantined reason)).bind fun _ =>
      (only_insertAuditLog eventId (py "quarantined") reason).bind fun _ => only_op .commit (by simp)
  cases recorded with
  | ok _ => exact only_removeInboxFile
  | error e =>
      dsimp only
      split <;> trivial

theorem only_recordOnce {record : Action Unit} (eventId : PyStr) (hrecord : record.Only (RemovesOnly name)) :
    (recordOnce name eventId record).Only (RemovesOnly name) := by
  have hquery : (alreadyRecorded eventId).Only (RemovesOnly name) := by
    refine Prog.Only.catching (Prog.Only.bind (only_withDb ?_) fun found => trivial) fun e => ?_
    · exact (Prog.only_ofExcept _).bind fun _ => only_op _ (by simp)
    · split <;> trivial
  refine hquery.bind fun found => ?_
  match found with
  | none => trivial
  | some true => exact only_removeInboxFile
  | some false => exact hrecord

theorem only_bookEvent (eventId rawHash : PyStr) (payload : List (PyStr × Json)) :
    (bookEvent cfg eventId rawHash payload).Only (RemovesOnly name) := by
  refine (Prog.only_ofExcept _).bind fun confidence => (Prog.only_ofExcept _).bind fun payloadJson => only_withDb ?_
  split
  · exact (only_insertEntry eventId [] rawHash (.queued _ _ _ confidence)).bind fun _ =>
      (only_insertAuditLog _ _ _).bind fun _ => only_op .commit (by simp)
  · exact (only_insertEntry eventId [] rawHash (.accepted _ _ _ confidence)).bind fun _ =>
      (only_insertAuditLog _ _ _).bind fun _ => only_op .commit (by simp)

theorem only_processEvent (raw : Bytes) (event : Json) (eventId : PyStr) :
    (processEvent cfg key name raw event eventId).Only (RemovesOnly name) := by
  have hcheck : (safesignalCheck cfg key event).Only (RemovesOnly name) := by
    unfold safesignalCheck
    split
    · trivial
    · refine (Prog.only_ofExcept _).bind fun _ => (Prog.only_ofExcept _).bind fun valid => ?_
      split
      · trivial
      · exact (only_op .now (by simp)).bind fun _ => trivial
  refine hcheck.bind fun verdict => ?_
  cases verdict with
  | error reason => exact only_quarantineFile _ _ _ _
  | ok _ =>
      dsimp only
      split
      · split
        · exact only_quarantineFile _ _ _ _
        · exact (only_bookEvent cfg _ _ _).bind fun _ => only_removeInboxFile
      · exact only_quarantineFile _ _ _ _

theorem only_processFile : (processFile cfg key name).Only (RemovesOnly name) := by
  refine (only_op _ (by simp)).bind fun raw => ?_
  split
  · exact only_recordOnce _ (only_quarantineFile _ _ _ _)
  · trivial
  · exact (Prog.only_ofExcept _).bind fun canonical => only_recordOnce _ (only_processEvent cfg key _ _ _)

end Only

section Tracking

variable {cfg : Config} {key : Bytes} {initial : List Row} {name : PyStr} {content : Bytes} {s : Shared}
variable {S : System Unit Shared ListenerOp ListenerOp.Res PyExc} {hsub : S.Sub system} {T : Prop}
variable (hT : ∀ i s op r s', S.exec i s op r s' → T ∨ Smooth s op r)
variable (hcovered : T ∨ ∀ row ∈ initial, Audited initial row.eventId)

-- The listener is through with this file for good.
structure Past (cfg : Config) (name : PyStr) (content : Bytes) (s : Shared) : Prop where
  gone : Drainable cfg content → (name, content) ∈ s.removed
  recorded : ¬Drainable cfg content → Recorded cfg s.database content

-- The file is there, or the listener is through with it.
def Tracked (cfg : Config) (T : Prop) (name : PyStr) (content : Bytes) (s : Shared) : Prop :=
  T ∨ s.inbox name = some content ∨ Past cfg name content s

theorem recorded_append {rows more : List Row} (h : Recorded cfg rows content) :
    Recorded cfg (rows ++ more) content := by
  obtain ⟨eventId, hid, row, hrow, haudit⟩ := h
  exact ⟨eventId, hid, row, List.mem_append_left _ hrow, haudit⟩

theorem Past.handled (h : Past cfg name content s) : Handled cfg name content s :=
  ⟨h.gone, fun hnot => .inr (h.recorded hnot)⟩

theorem Handled.tracked (h : Handled cfg name content s) : s.inbox name = some content ∨ Past cfg name content s := by
  by_cases hdrainable : Drainable cfg content
  · exact .inr ⟨h.gone, fun hnot => absurd hdrainable hnot⟩
  · exact (h.stays hdrainable).imp_right fun hrecorded => ⟨fun hyes => absurd hyes hdrainable, fun _ => hrecorded⟩

theorem exec_database (op : ListenerOp) (s : Shared) (r : Except PyExc op.Res) (s' : Shared) (h : Exec s op r s') :
    (∃ more, s'.database = s.database ++ more) ∧ s.removed ⊆ s'.removed := by
  cases h with
  | commit rows => exact ⟨⟨rows, rfl⟩, fun _ h => h⟩
  | unlink => exact ⟨⟨[], (List.append_nil _).symm⟩, fun _ h => List.mem_cons_of_mem _ h⟩
  | _ => exact ⟨⟨[], (List.append_nil _).symm⟩, fun _ h => h⟩

theorem Past.exec (op : ListenerOp) (s : Shared) (r : Except PyExc op.Res) (s' : Shared) (hexec : Exec s op r s')
    (h : Past cfg name content s) : Past cfg name content s' := by
  obtain ⟨⟨more, hmore⟩, hremoved⟩ := exec_database op s r s' hexec
  refine ⟨fun hdrainable => hremoved (h.gone hdrainable), fun hnot => ?_⟩
  rw [hmore]
  exact recorded_append (h.recorded hnot)

theorem Past.steady : Steady (Past cfg name content) := by
  intro s s' hgrows h
  refine ⟨fun hdrainable => ?_, fun hnot => ?_⟩
  · rw [hgrows.removed]
    exact h.gone hdrainable
  · rw [hgrows.database]
    exact h.recorded hnot

-- Only the removal of this very file changes what the inbox has under its name.
theorem here_exec (op : ListenerOp) (s : Shared) (r : Except PyExc op.Res) (s' : Shared) (hop : op ≠ .unlink name)
    (hexec : Exec s op r s') (h : s.inbox name = some content) : s'.inbox name = some content := by
  cases hexec with
  | unlink other =>
      have hne : name ≠ other := by
        rintro rfl
        exact hop rfl
      exact (Function.update_of_ne hne _ _).trans h
  | _ => exact h

theorem Handled.exec (op : ListenerOp) (s : Shared) (r : Except PyExc op.Res) (s' : Shared) (hop : op ≠ .unlink name)
    (hexec : Exec s op r s') (h : Handled cfg name content s) : Handled cfg name content s' := by
  by_cases hdrainable : Drainable cfg content
  · obtain ⟨-, hremoved⟩ := exec_database op s r s' hexec
    exact ⟨fun hyes => hremoved (h.gone hyes), fun hnot => absurd hdrainable hnot⟩
  · refine ⟨fun hyes => absurd hyes hdrainable, fun _ => (h.stays hdrainable).imp ?_ fun hrecorded => ?_⟩
    · exact here_exec op s r s' hop hexec
    · obtain ⟨⟨more, hmore⟩, -⟩ := exec_database op s r s' hexec
      rw [hmore]
      exact recorded_append hrecorded

theorem Handled.steady : Steady (Handled cfg name content) := by
  intro s s' hgrows h
  refine ⟨fun hdrainable => ?_, fun hnot => (h.stays hnot).imp (hgrows.inbox name content) fun hrecorded => ?_⟩
  · rw [hgrows.removed]
    exact h.gone hdrainable
  · rw [hgrows.database]
    exact hrecorded

theorem Tracked.steady : Steady (Tracked cfg T name content) := fun s s' hgrows h =>
  h.imp_right fun h => h.imp (hgrows.inbox name content) (Past.steady s s' hgrows)

theorem sat_keeping {α : Type} {Q : ListenerOp → Prop} {P : Shared → Prop} {post : Shared → Except PyExc α → Prop}
    {p : Action α} (h : (within cfg key initial hsub).Sat () post p s) (hP : Steady P)
    (hop : ∀ op s r s', Q op → Exec s op r s' → P s → P s') (hp : p.Only Q) (hs : P s) :
    (within cfg key initial hsub).Sat () (fun s' r => P s' ∧ post s' r) p s := by
  refine Contract.Sat.frame (C := within cfg key initial hsub) ?_ ?_ h hp hs
  · exact fun s s' hrely => hP s s' hrely.1
  · exact fun op s r s' hQ _ hexec => hop op s r s' hQ (hsub.exec _ _ _ _ _ hexec)

include hT hcovered

-- The file under this name is handled when it is its turn, and before and after it
-- the listener does nothing about it.
theorem sat_processNext (other : PyStr) (h : Tracked cfg T name content s) : (within cfg key initial hsub).Sat ()
    (fun s' _ => Tracked cfg T name content s' ∧
      (other = name ∨ (T ∨ Handled cfg name content s) → T ∨ Handled cfg name content s'))
      (processFile cfg key other) s := by
  have hsat : (within cfg key initial hsub).Sat () (fun s' _ => ∀ content, s.inbox other = some content →
      T ∨ Handled cfg other content s') (processFile cfg key other) s := sat_processFile hT hcovered other s
  by_cases hname : other = name
  · subst hname
    rcases h with ht | hhere | hpast
    · exact hsat.mono fun _ _ _ _ => ⟨.inl ht, fun _ => .inl ht⟩
    · refine hsat.mono fun s' _ _ hsettled => ?_
      have hhandled := hsettled content hhere
      exact ⟨hhandled.imp_right Handled.tracked, fun _ => hhandled⟩
    · refine (sat_keeping hsat Past.steady (fun op s r s' _ => Past.exec op s r s') (Prog.only_true _) hpast).mono ?_
      exact fun s' _ _ hframe => ⟨.inr (.inr hframe.1), fun _ => .inr hframe.1.handled⟩
  · have honly : (processFile cfg key other).Only fun op => op ≠ .unlink name :=
      (only_processFile cfg key).mono fun op hop hunlink => hname (hop name hunlink).symm
    rcases h with ht | h
    · exact hsat.mono fun _ _ _ _ => ⟨.inl ht, fun _ => .inl ht⟩
    by_cases hhandled : Handled cfg name content s
    · refine (sat_keeping hsat Handled.steady Handled.exec honly hhandled).mono ?_
      exact fun s' _ _ hframe => ⟨.inr hframe.1.tracked, fun _ => .inr hframe.1⟩
    · have hhere : s.inbox name = some content := h.resolve_right fun hpast => hhandled hpast.handled
      refine (sat_keeping hsat steady_has here_exec honly hhere).mono ?_
      intro s' _ _ hframe
      refine ⟨.inr (.inl hframe.1), fun hor => ?_⟩
      rcases hor with hsame | ht | hyes
      · exact absurd hsame hname
      · exact .inl ht
      · exact absurd hyes hhandled

omit hT hcovered in
theorem through_steady : Steady fun s => T ∨ Handled cfg name content s :=
  fun s s' hgrows h => h.imp_right (Handled.steady s s' hgrows)

omit hT hcovered in
theorem tracked_of_through (h : T ∨ Handled cfg name content s) : Tracked cfg T name content s :=
  h.imp_right Handled.tracked

-- The files of the listing, one after the other.
theorem sat_each (names : List PyStr) (h : Tracked cfg T name content s)
    (hlisted : name ∈ names ∨ T ∨ Handled cfg name content s) : (within cfg key initial hsub).Sat ()
    (fun s' _ => T ∨ Handled cfg name content s')
    (Prog.each (fun n => (processFile cfg key n).catching fun _ => return ()) names) s := by
  induction names generalizing s with
  | nil =>
      have hthrough := hlisted.resolve_left (by simp)
      exact fun s' hrely _ => through_steady s s' hrely.1 hthrough
  | cons other names ih =>
      have hcaught : (within cfg key initial hsub).Sat () (fun s' (r : Except PyExc Unit) => r = .ok () ∧
          Tracked cfg T name content s' ∧
            (other = name ∨ (T ∨ Handled cfg name content s) → T ∨ Handled cfg name content s'))
          ((processFile cfg key other).catching fun _ => return ()) s := by
        refine (sat_processNext hT hcovered other h).catching (fun s' _ _ hnext => ⟨rfl, hnext⟩) fun s' e _ hnext => ?_
        intro s'' hrely _
        exact ⟨rfl, Tracked.steady s' s'' hrely.1 hnext.1, fun hor => through_steady s' s'' hrely.1 (hnext.2 hor)⟩
      refine hcaught.bind ?_ ?_
      · rintro s' _ _ ⟨-, htracked, hnext⟩
        have hrest : name ∈ names ∨ T ∨ Handled cfg name content s' := by
          rcases hlisted with hmem | hthrough
          · rcases List.mem_cons.mp hmem with rfl | hmem
            · exact .inr (hnext (.inl rfl))
            · exact .inl hmem
          · exact .inr (hnext (.inr hthrough))
        refine (ih htracked hrest).bind (fun s'' _ _ hthrough => ?_) fun _ _ _ hthrough => hthrough
        exact fun s₃ hrely _ => through_steady s'' s₃ hrely.1 hthrough
      · rintro s' e _ ⟨he, -⟩
        cases he

theorem sat_watchInbox (hname : T ∨ isJsonName name = true) (h : Tracked cfg T name content s) :
    (within cfg key initial hsub).Sat () (fun s' _ => T ∨ Handled cfg name content s') (watchInbox cfg key) s := by
  have hmake : (within cfg key initial hsub).Sat () (Ends T fun _ s' => Tracked cfg T name content s')
      (perform .makeInbox) s := sat_quietOp hT .makeInbox rfl Tracked.steady.kept h
  refine hmake.bind ?_ fun s' e _ ht => .inl ht
  intro s _ _ h
  have hlist : (within cfg key initial hsub).Sat () (Ends T fun names s' => Tracked cfg T name content s' ∧
      (name ∈ names ∨ T ∨ Handled cfg name content s')) (perform .listInbox) s := by
    have hpost : ∀ names : List PyStr, Steady fun s => Tracked cfg T name content s ∧
        (name ∈ names ∨ T ∨ Handled cfg name content s) := fun names s s' hgrows h =>
      ⟨Tracked.steady s s' hgrows h.1, h.2.imp_right (through_steady s s' hgrows)⟩
    refine sat_op (by simp) (by simp) Tracked.steady.kept h (fun names => (hpost names).kept) ?_ ?_
    · intro s names s' _ h hexec _
      have hsmooth := hT _ _ _ _ _ hexec
      have hexec := hsub.exec _ _ _ _ _ hexec
      cases hexec with
      | quiet _ _ hop => cases hop
      | listInbox =>
          refine ⟨h, ?_⟩
          rcases hsmooth with ht | ⟨names', hnames, hall⟩
          · exact .inr (.inl ht)
          · obtain rfl := Except.ok.inj hnames
            rcases h with ht | hhere | hpast
            · exact .inr (.inl ht)
            · exact hname.elim (fun ht => .inr (.inl ht)) fun hname => .inl (hall name hname (by simp [hhere]))
            · exact .inr (.inr hpast.handled)
    · intro s e s' _ _ hexec
      refine (hT _ _ _ _ _ hexec).resolve_right ?_
      rintro ⟨names, hnames, -⟩
      cases hnames
  refine hlist.bind ?_ fun s' e _ ht => .inl ht
  rintro s names _ ⟨h, hlisted⟩
  refine (sat_each hT hcovered names h hlisted).bind (fun s' _ _ hthrough => ?_) fun _ _ _ hthrough => hthrough
  exact fun s'' hrely _ => through_steady s' s'' hrely.1 hthrough

-- One poll is enough for every file that is there.
theorem sat_poll (hname : T ∨ isJsonName name = true) (h : Tracked cfg T name content s) :
    (within cfg key initial hsub).Sat () (fun s' _ => T ∨ Handled cfg name content s') (poll cfg key) s := by
  have hexists : (within cfg key initial hsub).Sat () (Ends T fun found s' => Tracked cfg T name content s' ∧
      (T ∨ found = true)) (perform .databaseExists) s := by
    have hpost : ∀ found : Bool, Steady fun s => Tracked cfg T name content s ∧ (T ∨ found = true) :=
      fun found s s' hgrows h => ⟨Tracked.steady s s' hgrows h.1, h.2⟩
    refine sat_op (by simp) (by simp) Tracked.steady.kept h (fun found => (hpost found).kept) ?_ ?_
    · intro s found s' _ h hexec hgrows
      exact ⟨Tracked.steady s s' hgrows h, (hT _ _ _ _ _ hexec).imp_right Except.ok.inj⟩
    · intro s e s' _ _ hexec
      refine (hT _ _ _ _ _ hexec).resolve_right fun hsmooth => ?_
      cases hsmooth
  refine hexists.bind ?_ fun s' e _ ht => .inl ht
  rintro s found _ ⟨h, hfound⟩
  have hsleep : ∀ s, (T ∨ Handled cfg name content s) → (within cfg key initial hsub).Sat ()
      (fun s' _ => T ∨ Handled cfg name content s') (perform .sleep) s := by
    intro s h
    have hkept : (within cfg key initial hsub).Sat () (Ends T fun _ s' => T ∨ Handled cfg name content s')
        (perform .sleep) s := sat_quietOp hT .sleep rfl through_steady.kept h
    refine hkept.mono fun s' r _ hr => ?_
    cases r with
    | ok _ => exact hr
    | error e => exact .inl hr
  cases found with
  | false => exact hsleep s (.inl (hfound.resolve_right (by simp)))
  | true =>
      have hwatch : (within cfg key initial hsub).Sat () (fun s' _ => T ∨ Handled cfg name content s')
          (watchInbox cfg key) s := sat_watchInbox hT hcovered hname h
      refine Contract.Sat.bind (M := fun s' _ => T ∨ Handled cfg name content s') ?_ ?_ fun _ _ _ hthrough => hthrough
      · refine hwatch.catching (fun _ _ _ h => h) fun s' e _ h => ?_
        exact fun s'' hrely _ => through_steady s' s'' hrely.1 h
      · exact fun s' _ _ h => hsleep s' h

-- One poll is enough, and the later ones change nothing about it.
theorem sat_polls (rounds : Nat) (hname : T ∨ isJsonName name = true) (h : Tracked cfg T name content s) :
    (within cfg key initial hsub).Sat () (fun s' _ => 0 < rounds ∨ T ∨ Handled cfg name content s →
      T ∨ Handled cfg name content s') (polls cfg key rounds) s := by
  induction rounds generalizing s with
  | zero =>
      intro s' hrely _ hor
      exact through_steady s s' hrely.1 (hor.resolve_left (Nat.lt_irrefl 0))
  | succ rounds ih =>
      refine (sat_poll hT hcovered hname h).bind (fun s' _ _ hthrough => ?_) fun _ _ _ hthrough _ => hthrough
      exact (ih (tracked_of_through hthrough)).mono fun _ _ _ hlater _ => hlater (.inr hthrough)

end Tracking

end V91Core.Listener
