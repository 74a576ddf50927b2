import V91Core.Ledger.Commit

namespace V91Core.Ledger

open V91Core.Python

section Lines

theorem goodLines_append_iff (rt : Runtime) (n : Nat) (prev : Json) (lines more : List PyStr)
    (rs : List Record) : GoodLines rt n prev (lines ++ more) rs ↔
      ∃ first second, rs = first ++ second ∧ GoodLines rt n prev lines first ∧
        GoodLines rt (n + first.length) (headAfter prev first) more second := by
  induction lines generalizing n prev rs with
  | nil =>
      constructor
      · intro h
        exact ⟨[], rs, rfl, .nil n prev, h⟩
      · rintro ⟨first, second, rfl, hfirst, hsecond⟩
        cases hfirst
        exact hsecond
  | cons line lines ih =>
      rw [List.cons_append]
      constructor
      · intro h
        cases h with
        | blank _ _ _ _ _ hblank hrest =>
            obtain ⟨first, second, rfl, hfirst, hsecond⟩ := (ih _ _ _).mp hrest
            exact ⟨first, second, rfl, .blank _ _ _ _ _ hblank hfirst, hsecond⟩
        | record _ _ _ _ r rs hline hgood hrest =>
            obtain ⟨first, second, rfl, hfirst, hsecond⟩ := (ih _ _ _).mp hrest
            refine ⟨r :: first, second, rfl, .record _ _ _ _ _ _ hline hgood hfirst, ?_⟩
            rwa [List.length_cons, ← Nat.add_assoc, Nat.add_right_comm]
      · rintro ⟨first, second, rfl, hfirst, hsecond⟩
        cases hfirst with
        | blank _ _ _ _ _ hblank hrest =>
            exact .blank _ _ _ _ _ hblank ((ih _ _ _).mpr ⟨first, second, rfl, hrest, hsecond⟩)
        | record _ _ _ _ r first hline hgood hrest =>
            refine .record _ _ _ _ _ _ hline hgood ((ih _ _ _).mpr ⟨first, second, rfl, hrest, ?_⟩)
            rwa [List.length_cons, ← Nat.add_assoc, Nat.add_right_comm] at hsecond

theorem goodLines_single_iff (rt : Runtime) (n : Nat) (prev : Json) (line : PyStr) (rs : List Record)
    (hline : strip line ≠ []) :
    GoodLines rt n prev [line] rs ↔ ∃ r, rs = [r] ∧ GoodRecord rt n prev line r := by
  constructor
  · intro h
    cases h with
    | blank _ _ _ _ _ hblank _ => exact absurd hblank hline
    | record _ _ _ _ r rs _ hgood hrest =>
        cases hrest
        exact ⟨r, rfl, hgood⟩
  · rintro ⟨r, rfl, hgood⟩
    exact .record _ _ _ _ _ _ hline hgood (.nil _ _)

theorem goodLines_length (rt : Runtime) (n : Nat) (prev : Json) (lines : List PyStr) (rs : List Record)
    (h : GoodLines rt n prev lines rs) :
    rs.length = (lines.filter fun line => strip line ≠ []).length := by
  induction h with
  | nil => rfl
  | blank n prev line lines rs hblank hrest ih => rw [ih, List.filter_cons_of_neg (by simp [hblank])]
  | record n prev line lines r rs hline hgood hrest ih =>
      rw [List.length_cons, ih, List.filter_cons_of_pos (by simp [hline]), List.length_cons]

theorem goodLines_head_ascii (rt : Runtime) (n : Nat) (prev : Json) (lines : List PyStr)
    (rs : List Record) (h : GoodLines rt n prev lines rs)
    (hprev : isAscii (Json.toStr rt.printable prev) = true) :
    isAscii (Json.toStr rt.printable (headAfter prev rs)) = true := by
  induction h with
  | nil => exact hprev
  | blank n prev line lines rs hblank hrest ih => exact ih hprev
  | record n prev line lines r rs hline hgood hrest ih =>
      obtain ⟨digest, -, hhash⟩ := hgood.hashed
      exact ih ((compareValue_eq_true _ _ _).mp hhash).2

theorem goodLines_head_wf (rt : Runtime) (n : Nat) (prev : Json) (lines : List PyStr)
    (rs : List Record) (h : GoodLines rt n prev lines rs) (hprev : Json.Wf prev) :
    Json.Wf (headAfter prev rs) := by
  induction h with
  | nil => exact hprev
  | blank n prev line lines rs hblank hrest ih => exact ih hprev
  | record n prev line lines r rs hline hgood hrest ih =>
      obtain ⟨fields, hload, -, -, -, -, hhash⟩ := (storedRecord_eq_some _ _ _).mp hgood.stored
      have hwf := (Json.loads_sound _ _ _ ((loadsText_eq_ok _ _ _).mp hload)).1
      rw [Json.Wf, Json.wfFields_iff] at hwf
      exact ih (hwf.2 _ (Json.mem_of_lookup _ _ _ hhash))

theorem lastHash_goodLines (rt : Runtime) (n : Nat) (prev : Json) (lines : List PyStr)
    (rs : List Record) (h : GoodLines rt n prev lines rs) :
    lastHash rt prev lines = .ok (headAfter prev rs) := by
  induction h with
  | nil => rfl
  | blank n prev line lines rs hblank hrest ih => rw [lastHash, if_pos hblank, ih]
  | record n prev line lines r rs hline hgood hrest ih =>
      obtain ⟨fields, hload, -, -, -, -, hhash⟩ := (storedRecord_eq_some _ _ _).mp hgood.stored
      have hsub := (subscript_eq_ok (.obj fields) r.hash (py "hash")).mpr ⟨fields, rfl, hhash⟩
      rw [lastHash, if_neg hline, hload]
      change (subscript (.obj fields) (py "hash") >>= fun head => lastHash rt head lines) = _
      rw [hsub]
      exact ih

end Lines

-- The records of a file that `verify_chain` accepts; a missing file has none.
def Chained (rt : Runtime) (file : Option Bytes) (rs : List Record) : Prop :=
  match file with
  | none => rs = []
  | some content => GoodFile rt content rs

theorem verifyChain_of_chained (rt : Runtime) (file : Option Bytes) (rs : List Record)
    (h : Chained rt file rs) : verifyChain rt file = .ok ⟨rs.length, true, []⟩ := by
  cases file with
  | none =>
      obtain rfl := h
      rfl
  | some content => exact ((verifyChain_valid_iff rt content _).mpr ⟨rs, h, rfl⟩).1

theorem chained_of_verifyChain (rt : Runtime) (file : Option Bytes) (report : Report)
    (h : verifyChain rt file = .ok report) (hvalid : report.chainValid = true) :
    ∃ rs, Chained rt file rs ∧ report = ⟨rs.length, true, []⟩ := by
  cases file with
  | none =>
      obtain rfl := Except.ok.inj h
      exact ⟨[], rfl, rfl⟩
  | some content => exact (verifyChain_valid_iff rt content report).mp ⟨h, hvalid⟩

theorem records_of_chained (rt : Runtime) (file : Option Bytes) (rs : List Record)
    (h : Chained rt file rs) : records rt file = rs := by
  cases file with
  | none => exact h.symm
  | some content => exact goodFile_records rt content rs h

-- The state of a ledger object that has read these records.
def ledgerAfter (rs : List Record) : HashChainLedger := ⟨rs.length, headAfter (.str genesis) rs⟩

theorem readHead_of_chained (rt : Runtime) (file : Option Bytes) (rs : List Record)
    (h : Chained rt file rs) : readHead rt file = .ok (headAfter (.str genesis) rs) := by
  cases file with
  | none =>
      obtain rfl := h
      rfl
  | some content =>
      rw [readHead]
      simp only [lastHash_goodLines rt _ _ _ _ h.2]
      change (if (readLines content).error then _ else _) = _
      rw [h.1]
      rfl

theorem init_of_chained (rt : Runtime) (file : Option Bytes) (rs : List Record)
    (h : Chained rt file rs) : HashChainLedger.init rt file file = .ok (ledgerAfter rs) := by
  rw [HashChainLedger.init, verifyChain_of_chained rt file rs h, readHead_of_chained rt file rs h]
  rfl

theorem chained_of_init (rt : Runtime) (file : Option Bytes) (ledger : HashChainLedger)
    (h : HashChainLedger.init rt file file = .ok ledger) :
    ∃ rs, Chained rt file rs ∧ ledger = ledgerAfter rs := by
  rw [HashChainLedger.init] at h
  cases hv : verifyChain rt file with
  | error e =>
      rw [hv] at h
      cases h
  | ok report =>
      cases hvalid : report.chainValid with
      | false =>
          rw [hv] at h
          change (if !report.chainValid then _ else _) = _ at h
          rw [hvalid] at h
          cases h
      | true =>
          obtain ⟨rs, hchain, rfl⟩ := chained_of_verifyChain rt file report hv hvalid
          have hinit := init_of_chained rt file rs hchain
          rw [HashChainLedger.init, hv] at hinit
          rw [hv] at h
          exact ⟨rs, hchain, Except.ok.inj (h.symm.trans hinit)⟩

section Record

theorem recordLine_eq_ok (rt : Runtime) (ledger : HashChainLedger) (timestamp : PyStr) (payload : Json)
    (digest : PyStr) (bs : Bytes) : ledger.recordLine rt timestamp payload digest = .ok bs ↔
      ∃ text, Json.encode .record rt.nesting (ledger.record timestamp payload digest) = .ok text ∧
        utf8Encode (text ++ [cp '\n']) = some bs := by
  unfold HashChainLedger.recordLine
  cases hd : dumps rt .record (ledger.record timestamp payload digest) with
  | error e =>
      have hnone : ∀ text, Json.encode .record rt.nesting (ledger.record timestamp payload digest) ≠
          .ok text := fun text ht => by
        rw [(dumps_eq_ok _ _ _ _).mpr ht] at hd
        cases hd
      simp [bind, Except.bind, hnone]
  | ok text =>
      have htext := (dumps_eq_ok _ _ _ _).mp hd
      simp [bind, Except.bind, htext, encodeUtf8_eq_ok]

theorem append_eq_ok (rt : Runtime) (ledger ledger' : HashChainLedger) (file file' : Option Bytes)
    (payload record : Json) (timestamp : PyStr)
    (h : ledger.append rt file payload timestamp = ⟨file', ledger', .ok record⟩) :
    ∃ digest bs, computeHash rt ledger.head (.int ledger.seq) (.str timestamp) payload = .ok digest ∧
      ledger.recordLine rt timestamp payload digest = .ok bs ∧ file' = some (file.getD [] ++ bs) ∧
      ledger' = ⟨ledger.seq + 1, .str digest⟩ ∧ record = ledger.record timestamp payload digest := by
  unfold HashChainLedger.append at h
  split at h
  · cases h
  · rename_i digest hdigest
    split at h
    · cases h
    · rename_i bs hbs
      cases h
      exact ⟨digest, bs, hdigest, hbs, rfl, rfl, rfl⟩

theorem append_eq_error (rt : Runtime) (ledger ledger' : HashChainLedger) (file file' : Option Bytes)
    (payload : Json) (timestamp : PyStr) (e : PyExc)
    (h : ledger.append rt file payload timestamp = ⟨file', ledger', .error e⟩) :
    ledger' = ledger ∧ (file' = file ∨ file = none ∧ file' = some []) := by
  unfold HashChainLedger.append at h
  split at h
  · cases h
    exact ⟨rfl, .inl rfl⟩
  · split at h
    · cases h
      refine ⟨rfl, ?_⟩
      cases file with
      | none => exact .inr ⟨rfl, rfl⟩
      | some content => exact .inl rfl
    · cases h

def isBlank (c : CodePoint) : Bool := c = cp ' ' || c = cp '\t'

theorem isWs_of_isBlank (c : CodePoint) (h : isBlank c = true) : Json.isWs c = true := by
  simp only [isBlank, Bool.or_eq_true, decide_eq_true_eq] at h
  rcases h with rfl | rfl <;> decide

variable (rt : Runtime) (ledger : HashChainLedger) (timestamp : PyStr) (payload : Json) (digest text : PyStr)
  (htext : Json.encode .record rt.nesting (ledger.record timestamp payload digest) = .ok text)

include htext

theorem record_isLine : IsLine text := by
  obtain ⟨rest, hrest⟩ := Json.encode_obj_start _ _ _ _ htext
  exact ⟨by simp [hrest], Json.encode_printable .record _ _ _ htext⟩

theorem strip_record_ne_nil (pre : PyStr) : strip (pre ++ text ++ [cp '\n']) ≠ [] := by
  obtain ⟨rest, rfl⟩ := Json.encode_obj_start _ _ _ _ htext
  intro h
  have := (strip_eq_nil_iff _).mp h (cp '{') (by simp)
  revert this
  decide

theorem storedRecord_appended (hpayload : Json.Wf payload) (hhead : Json.Wf ledger.head) (pre : PyStr)
    (hpre : ∀ c ∈ pre, isBlank c = true) :
    storedRecord rt (pre ++ text ++ [cp '\n']) =
      some ⟨.int ledger.seq, .str timestamp, Json.norm ledger.head, Json.norm payload, .str digest⟩ := by
  have hkeys : ([(py "seq", Json.int ledger.seq), (py "timestamp", .str timestamp),
      (py "prev_hash", ledger.head), (py "payload", payload), (py "hash", .str digest)].map
        Prod.fst).Nodup := by
    change [py "seq", py "timestamp", py "prev_hash", py "payload", py "hash"].Nodup
    decide
  have hwf : Json.Wf (ledger.record timestamp payload digest) := by
    refine ⟨hkeys, (Json.wfFields_iff _).mpr ?_⟩
    simpa [Json.Wf] using ⟨hhead, hpayload⟩
  have hload := Json.loads_padded .record rfl rt.nesting _ hwf text pre [cp '\n'] htext
    (fun c hc => isWs_of_isBlank c (hpre c hc)) (by simpa using (by decide : Json.isWs (cp '\n') = true))
  have hlookup : ∀ key, Json.lookup key (Json.sortKeys (Json.normFields _)) = _ :=
    fun key => Json.lookup_norm key _ hkeys
  refine (storedRecord_eq_some _ _ _).mpr ⟨_, (loadsText_eq_ok _ _ _).mpr hload, ?_⟩
  refine ⟨hlookup _, hlookup _, hlookup _, hlookup _, hlookup _⟩

end Record

section Safe

-- The file ends with a line break, or with spaces and tabs after the last one, and
-- its last hash is a string.
structure AppendSafe (rt : Runtime) (file : Option Bytes) : Prop where
  lineEnd : ∀ c ∈ openLine file, isBlank c = true
  lastHash : ∀ r ∈ (records rt file).getLast?, ∃ s, r.hash = .str s

def appendedRecord (rs : List Record) (timestamp : PyStr) (payload : Json) (digest : PyStr) : Record :=
  ⟨.int rs.length, .str timestamp, headAfter (.str genesis) rs, Json.norm payload, .str digest⟩

theorem toStr_genesis_ascii (rt : Runtime) :
    isAscii (Json.toStr rt.printable (.str genesis)) = true := by
  rw [Json.toStr, genesis, isAscii, List.all_replicate]
  decide

theorem headAfter_str_iff (rs : List Record) :
    (∃ s, headAfter (.str genesis) rs = .str s) ↔ ∀ r ∈ rs.getLast?, ∃ s, r.hash = .str s := by
  by_cases hnil : rs = []
  · subst hnil
    exact iff_of_true ⟨genesis, rfl⟩ (by simp)
  · have hlast := headAfter_eq (.str genesis) rs hnil
    cases hr : rs.getLast? with
    | none => exact absurd (List.getLast?_eq_none_iff.mp hr) hnil
    | some r =>
        rw [hr, Option.map_some, Option.some.injEq] at hlast
        simp [hlast]

theorem hexdigest_compare (rt : Runtime) (m : Bytes) :
    compareValue rt (.str (rt.sha256Hex m)) (.str (rt.sha256Hex m)) = .ok true :=
  (compareValue_eq_true _ _ _).mpr ⟨rfl, isAscii_hexdigest _⟩

theorem computeHash_norm (rt : Runtime) (head : PyStr) (seq : Nat) (timestamp : PyStr) (payload : Json) :
    computeHash rt (.str head) (.int seq) (.str timestamp) (Json.norm payload) =
      computeHash rt (.str head) (.int seq) (.str timestamp) payload := by
  rw [computeHash, computeHash, chainMessage, chainMessage, dumps, dumps, Json.encode_norm .canonical rfl]

-- The file read line by line after an append: the open line and the new record
-- become one line.
theorem readLines_appended (rt : Runtime) (file : Option Bytes) (rs : List Record)
    (h : Chained rt file rs) (text : PyStr) (hline : IsLine text) (bs : Bytes)
    (hbs : utf8Encode (text ++ [cp '\n']) = some bs) :
    ∃ lines, GoodLines rt 0 (.str genesis)
        (lines ++ if openLine file = [] then [] else [openLine file]) rs ∧
      readLines (file.getD [] ++ bs) = ⟨lines ++ [openLine file ++ text ++ [cp '\n']], false⟩ ∧
      openLine (some (file.getD [] ++ bs)) = [] := by
  cases file with
  | none =>
      obtain rfl := h
      have hread := readLines_append [] bs [] text hline rfl hbs
      refine ⟨[], .nil _ _, hread, ?_⟩
      rw [openLine, Option.bind_some, Option.getD_none, decodedText_append [] bs [] text hline rfl hbs]
      exact (completePart_line [] text).2
  | some content =>
      obtain ⟨decoded, hdecoded⟩ := decodedText_of_readLines content h.1
      have hopen : openLine (some content) = lastPart decoded := by
        rw [openLine, Option.bind_some, hdecoded]
      have hgood := h.2
      rw [readLines_eq content decoded hdecoded] at hgood
      refine ⟨splitLines (completePart decoded), ?_, ?_, ?_⟩
      · rwa [hopen]
      · rw [hopen]
        exact readLines_append content bs decoded text hline hdecoded hbs
      · rw [openLine, Option.bind_some, Option.getD_some,
          decodedText_append content bs decoded text hline hdecoded hbs]
        exact (completePart_line decoded text).2

theorem goodLines_blank_end (rt : Runtime) (n : Nat) (prev : Json) (lines : List PyStr) (line : PyStr)
    (rs : List Record) (hblank : strip line = []) :
    GoodLines rt n prev (lines ++ if line = [] then [] else [line]) rs ↔ GoodLines rt n prev lines rs := by
  split
  · rw [List.append_nil]
  · rw [goodLines_append_iff]
    constructor
    · rintro ⟨first, second, rfl, hfirst, hsecond⟩
      rw [goodLines_blank_iff rt _ _ _ _ _ hblank] at hsecond
      cases hsecond
      rwa [List.append_nil]
    · intro h
      exact ⟨rs, [], (List.append_nil _).symm, h,
        (goodLines_blank_iff rt _ _ _ _ _ hblank).mpr (.nil _ _)⟩

theorem strip_of_isBlank (s : PyStr) (h : ∀ c ∈ s, isBlank c = true) : strip s = [] := by
  refine (strip_eq_nil_iff s).mpr fun c hc => ?_
  have := h c hc
  simp only [isBlank, Bool.or_eq_true, decide_eq_true_eq] at this
  rcases this with rfl | rfl <;> decide

theorem chained_empty (rt : Runtime) : Chained rt (some []) [] := ⟨rfl, .nil _ _⟩

-- An append that raises may have created the file, which changes no record.
theorem chained_append_error (rt : Runtime) (file file' : Option Bytes) (ledger ledger' : HashChainLedger)
    (payload : Json) (timestamp : PyStr) (e : PyExc) (rs : List Record) (h : Chained rt file rs)
    (happend : ledger.append rt file payload timestamp = ⟨file', ledger', .error e⟩) :
    Chained rt file' rs ∧ openLine file' = openLine file ∧ ledger' = ledger := by
  obtain ⟨rfl, rfl | ⟨rfl, rfl⟩⟩ := append_eq_error _ _ _ _ _ _ _ _ happend
  · exact ⟨h, rfl, rfl⟩
  · obtain rfl := h
    exact ⟨chained_empty rt, rfl, rfl⟩

-- An append to a safe file by a ledger object that has read it adds its record.
theorem chained_append (rt : Runtime) (file file' : Option Bytes) (rs : List Record)
    (ledger' : HashChainLedger) (payload record : Json) (timestamp : PyStr) (h : Chained rt file rs)
    (hsafe : AppendSafe rt file) (hpayload : Json.Wf payload)
    (happend : (ledgerAfter rs).append rt file payload timestamp = ⟨file', ledger', .ok record⟩) :
    ∃ digest, Chained rt file' (rs ++ [appendedRecord rs timestamp payload digest]) ∧
      ledger' = ledgerAfter (rs ++ [appendedRecord rs timestamp payload digest]) ∧ openLine file' = [] := by
  obtain ⟨digest, bs, hdigest, hrecord, rfl, rfl, -⟩ := append_eq_ok _ _ _ _ _ _ _ _ happend
  obtain ⟨text, htext, hbs⟩ := (recordLine_eq_ok _ _ _ _ _ _).mp hrecord
  have hline := record_isLine rt _ timestamp payload digest text htext
  obtain ⟨lines, hgood, hread, hopen⟩ := readLines_appended rt file rs h text hline bs hbs
  rw [goodLines_blank_end _ _ _ _ _ _ (strip_of_isBlank _ hsafe.lineEnd)] at hgood
  have hlast := hsafe.lastHash
  rw [records_of_chained rt file rs h, ← headAfter_str_iff] at hlast
  obtain ⟨head, hhead⟩ := hlast
  have hascii := goodLines_head_ascii rt _ _ _ _ hgood (toStr_genesis_ascii rt)
  have hstored := storedRecord_appended rt _ timestamp payload digest text htext hpayload
    (goodLines_head_wf rt _ _ _ _ hgood trivial) _ hsafe.lineEnd
  obtain ⟨m, hm, rfl⟩ := (computeHash_eq_ok _ _ _ _ _ _).mp hdigest
  refine ⟨rt.sha256Hex m, ?_, ?_, ?_⟩
  · change GoodFile rt _ _
    refine ⟨by rw [hread], ?_⟩
    rw [hread]
    refine (goodLines_append_iff _ _ _ _ _ _).mpr ⟨rs, _, rfl, hgood, ?_⟩
    rw [goodLines_single_iff _ _ _ _ _ (strip_record_ne_nil rt _ _ _ _ text htext _)]
    refine ⟨_, rfl, ?_, ?_, ?_, rt.sha256Hex m, ?_, hexdigest_compare rt m⟩
    · rw [hstored]
      simp only [ledgerAfter, appendedRecord, hhead, Json.norm]
    · simp [appendedRecord, Json.eqInt]
    · exact (compareValue_eq_true _ _ _).mpr ⟨by simp only [appendedRecord, hhead, Json.toStr], hascii⟩
    · simp only [ledgerAfter, hhead] at hdigest
      simp only [appendedRecord, hhead, computeHash_norm, hdigest]
  · simp only [ledgerAfter, appendedRecord, List.length_append, List.length_cons, List.length_nil,
      headAfter, List.foldl_append, List.foldl_cons, List.foldl_nil]
  · exact hopen

-- A space that is not JSON's, left on the open line, makes the next record unreadable.
theorem not_stored_after_space (rt : Runtime) (pre rest : PyStr)
    (hspace : ∀ c ∈ pre, c.isSpace = true) (hbreaks : ∀ c ∈ pre, c ≠ cp '\n' ∧ c ≠ cp '\r')
    (h : ∃ c ∈ pre, isBlank c = false) : storedRecord rt (pre ++ rest) = none := by
  obtain ⟨c, hc, hblank⟩ := h
  obtain ⟨before, d, after, rfl, hbefore, hd⟩ :
      ∃ before d after, pre = before ++ d :: after ∧ (∀ c ∈ before, Json.isWs c = true) ∧
        Json.isWs d = false := by
    refine ⟨pre.takeWhile Json.isWs, ?_⟩
    have hws : Json.isWs c = false := by
      obtain ⟨hn, hr⟩ := hbreaks c hc
      simp only [isBlank, Bool.or_eq_false_iff, decide_eq_false_iff_not] at hblank
      simp [Json.isWs, hblank, hn, hr]
    cases hdrop : pre.dropWhile Json.isWs with
    | nil =>
        rw [List.dropWhile_eq_nil_iff.mp hdrop c hc] at hws
        cases hws
    | cons d after =>
        have hhead := List.head?_dropWhile_not Json.isWs pre
        rw [hdrop] at hhead
        refine ⟨d, after, ?_, fun c hc => List.mem_takeWhile_imp hc, by simpa using hhead⟩
        rw [← hdrop, List.takeWhile_append_dropWhile]
  obtain ⟨e, he⟩ := Json.loads_space_error rt.nesting before (after ++ rest) d hbefore
    (hspace d (by simp)) hd
  cases hstored : storedRecord rt (before ++ d :: after ++ rest) with
  | none => rfl
  | some r =>
      obtain ⟨fields, hload, -⟩ := (storedRecord_eq_some _ _ _).mp hstored
      rw [loadsText_eq_ok, List.append_assoc, List.cons_append, he] at hload
      cases hload

-- An append that keeps the chain valid started from a safe file.
theorem safe_of_chained_append (rt : Runtime) (file file' : Option Bytes) (rs rs' : List Record)
    (ledger' : HashChainLedger) (payload record : Json) (timestamp : PyStr) (h : Chained rt file rs)
    (happend : (ledgerAfter rs).append rt file payload timestamp = ⟨file', ledger', .ok record⟩)
    (h' : Chained rt file' rs') (hlength : rs'.length = rs.length + 1) : AppendSafe rt file := by
  obtain ⟨digest, bs, hdigest, hrecord, rfl, rfl, -⟩ := append_eq_ok _ _ _ _ _ _ _ _ happend
  obtain ⟨text, htext, hbs⟩ := (recordLine_eq_ok _ _ _ _ _ _).mp hrecord
  have hline := record_isLine rt _ timestamp payload digest text htext
  obtain ⟨lines, hgood, hread, -⟩ := readLines_appended rt file rs h text hline bs hbs
  have hgood' : GoodLines rt 0 (.str genesis) (lines ++ [openLine file ++ text ++ [cp '\n']]) rs' := by
    have := h'.2
    rwa [hread] at this
  have hnew := strip_record_ne_nil rt _ timestamp payload digest text htext (openLine file)
  -- a record on the open line would be joined with the new one
  have hblank : strip (openLine file) = [] := by
    by_contra hopen
    have hne : openLine file ≠ [] := by
      rintro hnil
      rw [hnil] at hopen
      exact hopen rfl
    rw [if_neg hne] at hgood
    have hcount := goodLines_length rt _ _ _ _ hgood
    have hcount' := goodLines_length rt _ _ _ _ hgood'
    rw [List.filter_append, List.length_append] at hcount hcount'
    rw [List.filter_cons_of_pos (by simp [hopen])] at hcount
    rw [List.filter_cons_of_pos (by simp only [hnew, ne_eq, not_false_eq_true, decide_true])] at hcount'
    simp only [List.filter_nil, List.length_cons, List.length_nil] at hcount hcount'
    omega
  rw [goodLines_blank_end _ _ _ _ _ _ hblank] at hgood
  obtain ⟨first, second, rfl, hfirst, hsecond⟩ := (goodLines_append_iff _ _ _ _ _ _).mp hgood'
  obtain rfl : first = rs := by
    rw [← goodLines_records rt _ _ _ _ hfirst, ← goodLines_records rt _ _ _ _ hgood]
  obtain ⟨r, -, hr⟩ := (goodLines_single_iff _ _ _ _ _ hnew).mp hsecond
  constructor
  · by_contra hunsafe
    have hex : ∃ c ∈ openLine file, isBlank c = false := by
      simpa using hunsafe
    have hnone := not_stored_after_space rt (openLine file) (text ++ [cp '\n'])
      ((strip_eq_nil_iff _).mp hblank) (openLine_breaks file) hex
    rw [← List.append_assoc, hr.stored] at hnone
    cases hnone
  · rw [records_of_chained rt file first h, ← headAfter_str_iff]
    exact ⟨_, ((compareValue_eq_true _ _ _).mp hr.linked).1⟩

-- The record that any object appends to a safe file keeps the chain valid only
-- if it has the next number.
theorem seq_of_chained_append (rt : Runtime) (file file' : Option Bytes) (rs rs' : List Record)
    (ledger ledger' : HashChainLedger) (payload record : Json) (timestamp : PyStr)
    (h : Chained rt file rs) (hsafe : AppendSafe rt file) (hpayload : Json.Wf payload)
    (hhead : Json.Wf ledger.head)
    (happend : ledger.append rt file payload timestamp = ⟨file', ledger', .ok record⟩)
    (h' : Chained rt file' rs') : ledger.seq = rs.length := by
  obtain ⟨digest, bs, -, hrecord, rfl, rfl, -⟩ := append_eq_ok _ _ _ _ _ _ _ _ happend
  obtain ⟨text, htext, hbs⟩ := (recordLine_eq_ok _ _ _ _ _ _).mp hrecord
  have hline := record_isLine rt _ timestamp payload digest text htext
  obtain ⟨lines, hgood, hread, -⟩ := readLines_appended rt file rs h text hline bs hbs
  rw [goodLines_blank_end _ _ _ _ _ _ (strip_of_isBlank _ hsafe.lineEnd)] at hgood
  have hgood' : GoodLines rt 0 (.str genesis) (lines ++ [openLine file ++ text ++ [cp '\n']]) rs' := by
    have := h'.2
    rwa [hread] at this
  obtain ⟨first, second, rfl, hfirst, hsecond⟩ := (goodLines_append_iff _ _ _ _ _ _).mp hgood'
  obtain rfl : first = rs := by
    rw [← goodLines_records rt _ _ _ _ hfirst, ← goodLines_records rt _ _ _ _ hgood]
  rw [goodLines_single_iff _ _ _ _ _ (strip_record_ne_nil rt _ _ _ _ text htext _)] at hsecond
  obtain ⟨r, -, hr⟩ := hsecond
  have hstored := storedRecord_appended rt _ timestamp payload digest text htext hpayload hhead _ hsafe.lineEnd
  rw [hr.stored] at hstored
  have hseq := hr.seq
  rw [Option.some.inj hstored] at hseq
  simpa [Json.eqInt, eq_comm] using hseq

def nextRecord : Json :=
  .obj [(py "seq", .int 1), (py "timestamp", .str [cp 't']), (py "prev_hash", .str (hexdigest sampleDigest)),
    (py "payload", .obj []), (py "hash", .str (hexdigest nextDigest))]

-- The accepted file whose only record lacks its line break.
def openSampleFile : Option Bytes := sampleFile.map List.dropLast

end Safe

end V91Core.Ledger
