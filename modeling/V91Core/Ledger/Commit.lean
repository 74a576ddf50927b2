import V91Core.Chain.Commit
import V91Core.Ledger.Verify

namespace V91Core.Ledger

open V91Core.Python V91Core.Chain

-- The records of a file, without the blank lines.
def records (rt : Runtime) : Option Bytes → List Record
  | none => []
  | some content =>
      ((readLines content).lines.filter fun line => strip line ≠ []).filterMap (storedRecord rt)

-- The values that a record contributes to the history.
def Record.entry (r : Record) : Json × Json × Json := (r.seq, r.timestamp, Json.norm r.payload)

-- The messages that `verify_chain` hashes.
def hashed (rt : Runtime) (file : Option Bytes) : Set Bytes :=
  {m | ∃ r ∈ records rt file, chainMessage rt r.prevHash r.seq r.timestamp r.payload = .ok m}

section Message

theorem chainMessage_eq_ok (rt : Runtime) (prevHash seq timestamp payload : Json) (m : Bytes) :
    chainMessage rt prevHash seq timestamp payload = .ok m ↔
      ∃ body, Json.encode .canonical rt.nesting payload = .ok body ∧
        utf8Encode (chainText rt prevHash seq timestamp body) = some m := by
  unfold chainMessage
  cases hd : dumps rt .canonical payload with
  | error e =>
      have hnone : ∀ body, Json.encode .canonical rt.nesting payload ≠ .ok body := fun body hb => by
        rw [(dumps_eq_ok _ _ _ _).mpr hb] at hd
        cases hd
      simp [bind, Except.bind, hnone]
  | ok body =>
      have hbody := (dumps_eq_ok _ _ _ _).mp hd
      simp [bind, Except.bind, hbody, encodeUtf8_eq_ok]

theorem computeHash_eq_ok (rt : Runtime) (prevHash seq timestamp payload : Json) (digest : PyStr) :
    computeHash rt prevHash seq timestamp payload = .ok digest ↔
      ∃ m, chainMessage rt prevHash seq timestamp payload = .ok m ∧ rt.sha256Hex m = digest := by
  unfold computeHash
  cases chainMessage rt prevHash seq timestamp payload <;>
    simp [bind, Except.bind, pure, Except.pure]

theorem compareValue_eq_true (rt : Runtime) (value other : Json) :
    compareValue rt value other = .ok true ↔
      other = .str (Json.toStr rt.printable value) ∧ isAscii (Json.toStr rt.printable value) = true := by
  cases other with
  | str s =>
      rw [compareValue, compareDigest]
      split
      · rename_i h
        simp only [ofOption, Except.ok.injEq, decide_eq_true_eq, Json.str.injEq]
        rw [Bool.and_eq_true] at h
        exact ⟨fun he => ⟨he.symm, h.1⟩, fun he => he.1.symm⟩
      · rename_i h
        simp only [ofOption, reduceCtorEq, Json.str.injEq, false_iff, not_and]
        rintro rfl hascii
        exact h (by simp [hascii])
  | _ => simp [compareValue]

-- The message of an entry after a head without a bar.
def EntryMessage (rt : Runtime) (head : PyStr) (entry : Json × Json × Json) (m : Bytes) : Prop :=
  cp '|' ∉ head ∧ Json.IsNumber entry.1 ∧ (∃ timestamp, entry.2.1 = .str timestamp) ∧
    ∃ payload, Json.Wf payload ∧ entry.2.2 = Json.norm payload ∧
      chainMessage rt (.str head) entry.1 entry.2.1 payload = .ok m

theorem first_bar (s s' t t' : PyStr) (hs : cp '|' ∉ s) (hs' : cp '|' ∉ s')
    (h : s ++ cp '|' :: t = s' ++ cp '|' :: t') : s = s' ∧ t = t' := by
  induction s generalizing s' with
  | nil =>
      cases s' with
      | nil => exact ⟨rfl, (List.cons.inj h).2⟩
      | cons c s' => exact absurd ((List.cons.inj h).1 ▸ List.mem_cons_self) hs'
  | cons c s ih =>
      cases s' with
      | nil => exact absurd ((List.cons.inj h).1 ▸ List.mem_cons_self) hs
      | cons d s' =>
          obtain ⟨rfl, hrest⟩ := List.cons.inj h
          obtain ⟨rfl, rfl⟩ := ih s' (fun hm => hs (List.mem_cons_of_mem _ hm))
            (fun hm => hs' (List.mem_cons_of_mem _ hm)) hrest
          exact ⟨rfl, rfl⟩

-- A message determines the head and the entry, whatever bars the timestamp and
-- the payload contain.
theorem entryMessage_injective (rt : Runtime) (head head' : PyStr) (entry entry' : Json × Json × Json)
    (m : Bytes) (h : EntryMessage rt head entry m) (h' : EntryMessage rt head' entry' m) :
    head = head' ∧ entry = entry' := by
  obtain ⟨seq, timestamp, value⟩ := entry
  obtain ⟨seq', timestamp', value'⟩ := entry'
  obtain ⟨hhead, hseq, ⟨ts, rfl⟩, payload, hwf, rfl, hm⟩ := h
  obtain ⟨hhead', hseq', ⟨ts', rfl⟩, payload', hwf', rfl, hm'⟩ := h'
  obtain ⟨body, hbody, htext⟩ := (chainMessage_eq_ok _ _ _ _ _ _).mp hm
  obtain ⟨body', hbody', htext'⟩ := (chainMessage_eq_ok _ _ _ _ _ _).mp hm'
  have hchain := utf8Encode_injective _ _ m htext htext'
  unfold chainText at hchain
  obtain ⟨rfl, hafterHead⟩ := first_bar _ _ _ _ hhead hhead' hchain
  obtain ⟨hseqs, hafterSeq⟩ := first_bar _ _ _ _ (Json.toStr_number_no_bar _ _ hseq)
    (Json.toStr_number_no_bar _ _ hseq') hafterHead
  obtain rfl := Json.toStr_number_injective _ _ _ hseq hseq' hseqs
  -- the timestamp may contain bars, the body decides which bar is the last separator
  obtain ⟨rfl, rfl⟩ := Json.bar_split _ _ _ _ (Json.closed_encode _ rfl _ _ _ hbody)
    (Json.closed_encode _ rfl _ _ _ hbody') hafterSeq
  have hpayload := Json.encode_injective .canonical rfl rt.nesting payload payload' hwf hwf' _ hbody hbody'
  exact ⟨rfl, congrArg (fun p => (seq, Json.str ts, p)) hpayload⟩

end Message

section Files

theorem storedRecord_wf (rt : Runtime) (line : PyStr) (r : Record) (h : storedRecord rt line = some r) :
    Json.Wf r.payload := by
  obtain ⟨fields, hload, -, -, -, hpayload, -⟩ := (storedRecord_eq_some _ _ _).mp h
  have hwf := (Json.loads_sound _ _ _ ((loadsText_eq_ok _ _ _).mp hload)).1
  rw [Json.Wf, Json.wfFields_iff] at hwf
  exact hwf.2 _ (Json.mem_of_lookup _ _ _ hpayload)

theorem goodLines_records (rt : Runtime) (n : Nat) (prev : Json) (lines : List PyStr) (rs : List Record)
    (h : GoodLines rt n prev lines rs) :
    (lines.filter fun line => strip line ≠ []).filterMap (storedRecord rt) = rs := by
  induction h with
  | nil => rfl
  | blank n prev line lines rs hblank hrest ih =>
      rw [List.filter_cons_of_neg (by simp [hblank]), ih]
  | record n prev line lines r rs hline hgood hrest ih =>
      rw [List.filter_cons_of_pos (by simp [hline]), List.filterMap_cons_some hgood.stored, ih]

theorem goodFile_records (rt : Runtime) (content : Bytes) (rs : List Record)
    (h : GoodFile rt content rs) : records rt (some content) = rs :=
  goodLines_records rt _ _ _ _ h.2

theorem no_bar_of_digest (rt : Runtime) (m : Bytes) : cp '|' ∉ rt.sha256Hex m := by
  intro h
  exact absurd (hexdigest_chars _ _ h) (by decide)

-- A valid chain links the genesis hash to the last hash.
theorem goodLines_linked (rt : Runtime) (messages : Set Bytes) (n : Nat) (prev : Json)
    (lines : List PyStr) (rs : List Record) (h : GoodLines rt n prev lines rs)
    (hbar : cp '|' ∉ Json.toStr rt.printable prev)
    (hts : ∀ r ∈ rs, ∃ timestamp, r.timestamp = .str timestamp)
    (hmessages : ∀ r ∈ rs, ∀ m, chainMessage rt r.prevHash r.seq r.timestamp r.payload = .ok m →
      m ∈ messages) :
    Linked (HashLink (EntryMessage rt) rt.sha256Hex messages) (Json.toStr rt.printable prev)
      (rs.map Record.entry) (Json.toStr rt.printable (headAfter prev rs)) := by
  induction h with
  | nil => rfl
  | blank n prev line lines rs hblank hrest ih => exact ih hbar hts hmessages
  | record n prev line lines r rs hline hgood hrest ih =>
      obtain ⟨digest, hdigest, hhash⟩ := hgood.hashed
      obtain ⟨hprev, -⟩ := (compareValue_eq_true _ _ _).mp hgood.linked
      obtain ⟨hr, -⟩ := (compareValue_eq_true _ _ _).mp hhash
      obtain ⟨m, hm, rfl⟩ := (computeHash_eq_ok _ _ _ _ _ _).mp hdigest
      have hnext : Json.toStr rt.printable r.hash = rt.sha256Hex m := (Json.str.inj hr).symm
      refine ⟨Json.toStr rt.printable r.hash, ?_, ih ?_ ?_ ?_⟩
      · refine ⟨m, hmessages r (by simp) m hm, ⟨hbar, Json.isNumber_of_eqInt _ _ hgood.seq,
          hts r (by simp), r.payload, storedRecord_wf rt line r hgood.stored, rfl, ?_⟩, hnext.symm⟩
        -- the text of the message depends on the text of the previous hash only
        rw [← hm]
        subst hprev
        rfl
      · rw [hnext]
        exact no_bar_of_digest rt m
      · exact fun r hr => hts r (List.mem_cons_of_mem _ hr)
      · exact fun r hr => hmessages r (List.mem_cons_of_mem _ hr)

theorem headAfter_eq (prev : Json) (rs : List Record) (h : rs ≠ []) :
    some (headAfter prev rs) = rs.getLast?.map Record.hash := by
  induction rs generalizing prev with
  | nil => exact absurd rfl h
  | cons r rs ih =>
      cases rs with
      | nil => rfl
      | cons r' rs =>
          rw [List.getLast?_cons_cons]
          exact ih r.hash (by simp)

theorem verified_goodFile (rt : Runtime) (file : Option Bytes) (report : Report)
    (h : verifyChain rt file = .ok report) (hvalid : report.chainValid = true) :
    report.recordsChecked = (records rt file).length ∧
      ∃ lines, GoodLines rt 0 (.str genesis) lines (records rt file) := by
  cases file with
  | none =>
      obtain rfl := Except.ok.inj h
      exact ⟨rfl, [], .nil _ _⟩
  | some content =>
      obtain ⟨rs, hgood, rfl⟩ := (verifyChain_valid_iff rt content report).mp ⟨h, hvalid⟩
      rw [goodFile_records rt content rs hgood]
      exact ⟨rfl, _, hgood.2⟩

-- Two valid ledgers with equally many records and the same last hash have the
-- same history.
theorem head_commits_to_history (rt : Runtime) (file file' : Option Bytes) (report report' : Report)
    (hverify : verifyChain rt file = .ok report) (hvalid : report.chainValid = true)
    (hverify' : verifyChain rt file' = .ok report') (hvalid' : report'.chainValid = true)
    (hts : ∀ r ∈ records rt file ++ records rt file', ∃ timestamp, r.timestamp = .str timestamp)
    (hsha : rt.CollisionFree (hashed rt file ∪ hashed rt file'))
    (hcount : report.recordsChecked = report'.recordsChecked)
    (hlast : (records rt file).getLast?.map Record.hash = (records rt file').getLast?.map Record.hash) :
    (records rt file).map Record.entry = (records rt file').map Record.entry := by
  obtain ⟨hlength, lines, hgood⟩ := verified_goodFile rt file report hverify hvalid
  obtain ⟨hlength', lines', hgood'⟩ := verified_goodFile rt file' report' hverify' hvalid'
  have hbar : cp '|' ∉ Json.toStr rt.printable (.str genesis) := by
    intro h
    exact absurd (List.eq_of_mem_replicate h) (by decide)
  have hlinked := goodLines_linked rt (hashed rt file ∪ hashed rt file') 0 _ lines _ hgood hbar
    (fun r hr => hts r (List.mem_append_left _ hr)) fun r hr m hm => .inl ⟨r, hr, hm⟩
  have hlinked' := goodLines_linked rt (hashed rt file ∪ hashed rt file') 0 _ lines' _ hgood' hbar
    (fun r hr => hts r (List.mem_append_right _ hr)) fun r hr m hm => .inr ⟨r, hr, hm⟩
  have hhead : headAfter (.str genesis) (records rt file) =
      headAfter (.str genesis) (records rt file') := by
    by_cases hnil : records rt file = []
    · have hnil' : records rt file' = [] := by
        rw [hnil, List.getLast?_nil, Option.map_none] at hlast
        exact List.getLast?_eq_none_iff.mp (Option.map_eq_none_iff.mp hlast.symm)
      rw [hnil, hnil']
    · have hnil' : records rt file' ≠ [] := by
        intro h
        rw [h, List.getLast?_nil, Option.map_none] at hlast
        exact hnil (List.getLast?_eq_none_iff.mp (Option.map_eq_none_iff.mp hlast))
      rw [← headAfter_eq _ _ hnil, ← headAfter_eq _ _ hnil'] at hlast
      exact Option.some.inj hlast
  rw [hhead] at hlinked
  have hinj : Set.InjOn rt.sha256Hex (hashed rt file ∪ hashed rt file') :=
    fun a ha b hb hab => hsha.eq ha hb hab
  have hback := hashLink_back (EntryMessage rt) rt.sha256Hex (hashed rt file ∪ hashed rt file') hinj
    (entryMessage_injective rt)
  exact (hlinked.commits hback hlinked' (by simp only [List.length_map]; omega)).2

-- SHA-256 at the messages of the first two records with the timestamp "t" and the
-- payload without keys.
def sampleDigest : Digest :=
  ⟨[170, 11, 27, 20, 69, 219, 240, 217, 28, 108, 2, 175, 40, 169, 198, 104, 214, 86, 232, 248,
    226, 246, 156, 244, 22, 202, 209, 104, 127, 166, 146, 235], rfl⟩

def nextDigest : Digest :=
  ⟨[201, 14, 88, 234, 48, 252, 89, 137, 17, 254, 252, 100, 154, 184, 205, 56, 156, 137, 31, 225,
    129, 239, 215, 248, 23, 204, 92, 169, 64, 138, 98, 236], rfl⟩

def sampleMessage : Bytes := List.replicate 64 48 ++ [124, 48, 124, 116, 124, 123, 125]

def nextMessage : Bytes :=
  (hexdigest sampleDigest).map (fun c => .ofNat c.val) ++ [124, 49, 124, 116, 124, 123, 125]

def sampleRuntime : Runtime where
  sha256 m :=
    if m = sampleMessage then sampleDigest
    else if m = nextMessage then nextDigest
    else zeroDigest
  printable _ := true
  nesting := 10

def sampleFile : Option Bytes :=
  (HashChainLedger.append sampleRuntime ⟨0, .str genesis⟩ none (.obj []) [cp 't']).file

-- The same record after a blank line.
def sampleFileBlank : Option Bytes := sampleFile.map ([32, 10] ++ ·)

def sampleRecord : Record :=
  ⟨.int 0, .str [cp 't'], .str genesis, .obj [], .str (hexdigest sampleDigest)⟩

theorem head_commits_to_history_blank :
    (records sampleRuntime sampleFile).map Record.entry =
      (records sampleRuntime sampleFileBlank).map Record.entry := by
  have hrecords : records sampleRuntime sampleFile = [sampleRecord] ∧
      records sampleRuntime sampleFileBlank = [sampleRecord] := by decide +kernel
  have hmessage : ∀ m, chainMessage sampleRuntime sampleRecord.prevHash sampleRecord.seq
      sampleRecord.timestamp sampleRecord.payload = .ok m → m = sampleMessage := by
    have hm : chainMessage sampleRuntime sampleRecord.prevHash sampleRecord.seq
        sampleRecord.timestamp sampleRecord.payload = .ok sampleMessage := by decide +kernel
    intro m h
    rw [hm] at h
    exact (Except.ok.inj h).symm
  have hhashed : hashed sampleRuntime sampleFile ∪ hashed sampleRuntime sampleFileBlank ⊆ {sampleMessage} := by
    rintro m (⟨r, hr, hm⟩ | ⟨r, hr, hm⟩)
    · rw [hrecords.1, List.mem_singleton] at hr
      subst hr
      exact hmessage m hm
    · rw [hrecords.2, List.mem_singleton] at hr
      subst hr
      exact hmessage m hm
  refine head_commits_to_history sampleRuntime sampleFile sampleFileBlank ⟨1, true, []⟩ ⟨1, true, []⟩
    (by decide +kernel) rfl (by decide +kernel) rfl ?_ ?_ rfl ?_
  · rw [hrecords.1, hrecords.2]
    simp [sampleRecord]
  · exact (Set.subsingleton_singleton.anti hhashed).injOn _
  · rw [hrecords.1, hrecords.2]

end Files

end V91Core.Ledger
