import V91Core.Chain.Commit
import V91Core.Json.RoundTrip
import V91Core.Measurement.Model

namespace V91Core.Measurement

open V91Core.Python V91Core.Chain

section Lines

theorem require_eq_ok (ok : Bool) (e : PyExc) (u : Unit) : require ok e = .ok u ↔ ok = true := by
  cases ok <;> simp [require]

theorem digestInput_eq_ok (rt : Runtime) (previous : PyStr) (payload : Json) (m : Bytes) :
    digestInput rt previous payload = .ok m ↔
      ∃ body bytes, Json.encode canonicalStyle (rt.nesting - 2) payload = .ok body ∧ utf8Encode body = some bytes ∧
        isAscii previous = true ∧ m = previous.map (fun c => .ofNat c.val) ++ 10 :: bytes := by
  simp only [digestInput, bind_eq_ok, encodeAscii_eq_ok, canonicalJson, dumps_eq_ok, encodeUtf8_eq_ok, pure,
    Except.pure, Except.ok.injEq]
  constructor
  · rintro ⟨_, ⟨hascii, rfl⟩, body, hbody, bytes, hbytes, rfl⟩
    exact ⟨body, bytes, hbody, hbytes, hascii, rfl⟩
  · rintro ⟨body, bytes, hbody, hbytes, hascii, rfl⟩
    exact ⟨_, ⟨hascii, rfl⟩, body, hbody, bytes, hbytes, rfl⟩

theorem eventHash_eq_ok (rt : Runtime) (previous : PyStr) (payload : Json) (digest : PyStr) :
    eventHash rt previous payload = .ok digest ↔
      ∃ m, digestInput rt previous payload = .ok m ∧ rt.sha256Hex m = digest := by
  simp only [eventHash, bind_eq_ok, pure, Except.pure, Except.ok.injEq]

-- A record as `verify_ledger` accepts it after this hash.
structure GoodRecord (rt : Runtime) (sequence : Nat) (previous : PyStr) (fields : List (PyStr × Json))
    (digest : PyStr) : Prop where
  numbered : Json.eqInt sequence (get (py "sequence") (Json.erase (py "event_hash") fields)) = true
  linked : get (py "previous_hash") (Json.erase (py "event_hash") fields) = .str previous
  hashed : eventHash rt previous (.obj (Json.erase (py "event_hash") fields)) = .ok digest
  supplied : Json.lookup (py "event_hash") fields = some (.str digest)

theorem get_eq_str (key s : PyStr) (fields : List (PyStr × Json)) :
    get key fields = .str s ↔ Json.lookup key fields = some (.str s) := by
  unfold get
  cases Json.lookup key fields <;> simp

theorem checkRecord_eq_ok (rt : Runtime) (lineNumber sequence : Nat) (previous : PyStr) (record : Json)
    (digest : PyStr) : checkRecord rt lineNumber sequence previous record = .ok digest ↔
      ∃ fields, record = .obj fields ∧ GoodRecord rt sequence previous fields digest := by
  cases record with
  | obj fields =>
      simp only [checkRecord, bind_eq_ok, require_eq_ok, pure, Except.pure, Except.ok.injEq, decide_eq_true_eq,
        get_eq_str, Json.obj.injEq]
      constructor
      · rintro ⟨-, hsequence, -, hprevious, calculated, hhash, -, hsupplied, rfl⟩
        exact ⟨fields, rfl, hsequence, (get_eq_str _ _ _).mpr hprevious, hhash, hsupplied⟩
      · rintro ⟨_, rfl, h⟩
        exact ⟨(), h.numbered, (), (get_eq_str _ _ _).mp h.linked, digest, h.hashed, (), h.supplied, rfl⟩
  | _ => simp [checkRecord]

theorem verifyLine_eq_ok (rt : Runtime) (lineNumber sequence : Nat) (previous line digest : PyStr) :
    verifyLine rt lineNumber sequence previous line = .ok digest ↔
      strip line ≠ [] ∧ ∃ fields, Json.loads rt.nesting line = .ok (.obj fields) ∧
        GoodRecord rt sequence previous fields digest := by
  simp only [verifyLine, bind_eq_ok, require_eq_ok, decide_eq_true_eq, loadsText_eq_ok, checkRecord_eq_ok]
  constructor
  · rintro ⟨-, hline, _, hload, fields, rfl, h⟩
    exact ⟨hline, fields, hload, h⟩
  · rintro ⟨hline, fields, hload, h⟩
    exact ⟨(), hline, _, hload, fields, rfl, h⟩

theorem GoodRecord.digest_length (rt : Runtime) (sequence : Nat) (previous : PyStr)
    (fields : List (PyStr × Json)) (digest : PyStr) (h : GoodRecord rt sequence previous fields digest) :
    digest.length = 64 := by
  obtain ⟨m, -, rfl⟩ := (eventHash_eq_ok _ _ _ _).mp h.hashed
  exact hexdigest_length _

end Lines

def parsed (rt : Runtime) (line : PyStr) : Option Json := (loadsText rt line).toOption

-- The parsed records of a file.
def records (rt : Runtime) : Option Bytes → List Json
  | none => []
  | some content => (readLines content).lines.filterMap (parsed rt)

-- The messages that `verify_ledger` hashes.
def hashed (rt : Runtime) (file : Option Bytes) : Set Bytes :=
  {m | ∃ fields previous, .obj fields ∈ records rt file ∧ get (py "previous_hash") fields = .str previous ∧
    digestInput rt previous (.obj (Json.erase (py "event_hash") fields)) = .ok m}

section Commit

-- The message that is hashed for a record after a hash of 64 characters.
def RecordMessage (rt : Runtime) (previous : PyStr) (record : Json) (m : Bytes) : Prop :=
  previous.length = 64 ∧ ∃ fields, Json.Wf (.obj fields) ∧ record = Json.norm (.obj fields) ∧
    Json.lookup (py "event_hash") fields = some (.str (rt.sha256Hex m)) ∧
      digestInput rt previous (.obj (Json.erase (py "event_hash") fields)) = .ok m

-- A message determines the previous hash and every field of the record.
theorem recordMessage_injective (rt : Runtime) (previous previous' : PyStr) (record record' : Json)
    (m : Bytes) (h : RecordMessage rt previous record m) (h' : RecordMessage rt previous' record' m) :
    previous = previous' ∧ record = record' := by
  obtain ⟨hlength, fields, hwf, rfl, hsupplied, hinput⟩ := h
  obtain ⟨hlength', fields', hwf', rfl, hsupplied', hinput'⟩ := h'
  obtain ⟨body, bytes, hbody, hbytes, hascii, rfl⟩ := (digestInput_eq_ok _ _ _ _).mp hinput
  obtain ⟨body', bytes', hbody', hbytes', hascii', heq⟩ := (digestInput_eq_ok _ _ _ _).mp hinput'
  -- both hashes have 64 characters, so the bodies start at the same place
  obtain ⟨hprevious, htail⟩ := List.append_inj heq (by rw [List.length_map, List.length_map, hlength, hlength'])
  obtain rfl := encodeAscii_injective previous previous' _ ((encodeAscii_eq_ok _ _).mpr ⟨hascii, rfl⟩)
    ((encodeAscii_eq_ok _ _).mpr ⟨hascii', hprevious.symm⟩)
  obtain rfl := (List.cons.inj htail).2
  obtain rfl := utf8Encode_injective body body' bytes hbytes hbytes'
  have hrest := Json.encode_injective canonicalStyle rfl (rt.nesting - 2) _ _ (Json.wf_erase _ fields hwf)
    (Json.wf_erase _ fields' hwf') body hbody hbody'
  refine ⟨rfl, Json.norm_of_erase (py "event_hash") _ fields fields' ?_ ?_ hsupplied hsupplied' hrest⟩
  · exact (by simpa only [Json.Wf] using hwf : _ ∧ _).1
  · exact (by simpa only [Json.Wf] using hwf' : _ ∧ _).1

-- The lines that `verify_ledger` accepts link the first hash to the last one.
theorem verifyLines_linked (rt : Runtime) (messages : Set Bytes) (lineNumber sequence next : Nat)
    (previous last : PyStr) (lines : List PyStr)
    (h : verifyLines rt lineNumber sequence previous lines = .ok (next, last))
    (hlength : previous.length = 64)
    (hmessages : ∀ fields previous, .obj fields ∈ lines.filterMap (parsed rt) →
      get (py "previous_hash") fields = .str previous →
        ∀ m, digestInput rt previous (.obj (Json.erase (py "event_hash") fields)) = .ok m → m ∈ messages) :
    next = sequence + (lines.filterMap (parsed rt)).length ∧
      Linked (HashLink (RecordMessage rt) rt.sha256Hex messages) previous
        ((lines.filterMap (parsed rt)).map Json.norm) last := by
  induction lines generalizing lineNumber sequence previous with
  | nil =>
      obtain ⟨rfl, rfl⟩ := Prod.mk.inj (Except.ok.inj h)
      exact ⟨rfl, rfl⟩
  | cons line lines ih =>
      rw [verifyLines, bind_eq_ok] at h
      obtain ⟨digest, hline, hrest⟩ := h
      obtain ⟨-, fields, hload, hgood⟩ := (verifyLine_eq_ok _ _ _ _ _ _).mp hline
      have hparsed : parsed rt line = some (.obj fields) := by
        rw [parsed, (loadsText_eq_ok _ _ _).mpr hload]
        rfl
      rw [List.filterMap_cons_some hparsed] at hmessages ⊢
      obtain ⟨hnext, hlinked⟩ := ih _ _ _ hrest hgood.digest_length
        fun fields previous hmem => hmessages fields previous (List.mem_cons_of_mem _ hmem)
      refine ⟨by rw [hnext, List.length_cons]; omega, digest, ?_, hlinked⟩
      obtain ⟨m, hm, rfl⟩ := (eventHash_eq_ok _ _ _ _).mp hgood.hashed
      have hprevious := hgood.linked
      rw [get_eq_str, Json.lookup_erase _ _ _ (by decide), ← get_eq_str] at hprevious
      exact ⟨m, hmessages fields previous (by simp) hprevious m hm,
        ⟨hlength, fields, (Json.loads_sound _ _ _ hload).1, rfl, hgood.supplied, hm⟩, rfl⟩

theorem verifyContent_linked (rt : Runtime) (messages : Set Bytes) (content : Bytes) (state : LedgerState)
    (h : verifyContent rt content = .ok state) (hmessages : hashed rt (some content) ⊆ messages) :
    state = ⟨.chainValid, (records rt (some content)).length, state.lastHash⟩ ∧
      Linked (HashLink (RecordMessage rt) rt.sha256Hex messages) genesis
        ((records rt (some content)).map Json.norm) state.lastHash := by
  rw [verifyContent] at h
  split at h
  · cases h
  · rename_i next last hlines
    obtain ⟨rfl, hlinked⟩ := verifyLines_linked rt messages 1 1 next genesis last _ hlines
      (List.length_replicate ..) fun fields previous hmem hprevious m hm =>
        hmessages ⟨fields, previous, hmem, hprevious, hm⟩
    split at h
    · cases h
    · obtain rfl := Except.ok.inj h
      exact ⟨by rw [Nat.add_sub_cancel_left]; rfl, hlinked⟩

-- Two valid ledgers with equally many events and the same last hash hold the same
-- records, whatever fields these have.
theorem last_hash_commits_to_records (rt : Runtime) (file file' : Option Bytes) (events : Nat)
    (lastHash : PyStr) (hverify : verifyLedger rt file = .ok ⟨.chainValid, events, lastHash⟩)
    (hverify' : verifyLedger rt file' = .ok ⟨.chainValid, events, lastHash⟩)
    (hsha : rt.CollisionFree (hashed rt file ∪ hashed rt file')) :
    (records rt file).map Json.norm = (records rt file').map Json.norm := by
  cases file with
  | none => cases hverify
  | some content =>
      cases file' with
      | none => cases hverify'
      | some content' =>
          obtain ⟨hcount, hlinked⟩ := verifyContent_linked rt _ content _ hverify Set.subset_union_left
          obtain ⟨hcount', hlinked'⟩ := verifyContent_linked rt _ content' _ hverify' Set.subset_union_right
          have hinj : Set.InjOn rt.sha256Hex (hashed rt (some content) ∪ hashed rt (some content')) :=
            fun a ha b hb hab => hsha.eq ha hb hab
          have hback := hashLink_back (RecordMessage rt) rt.sha256Hex _ hinj (recordMessage_injective rt)
          have hlength : (records rt (some content)).length = (records rt (some content')).length :=
            (LedgerState.mk.inj hcount).2.1.symm.trans (LedgerState.mk.inj hcount').2.1
          exact (hlinked.commits hback hlinked' (by rw [List.length_map, List.length_map, hlength])).2

-- SHA-256 at the record that has only a sequence number and the genesis hash.
def sampleDigest : Digest :=
  ⟨[106, 41, 137, 220, 159, 180, 210, 204, 120, 180, 7, 224, 20, 75, 80, 124, 66, 162, 120, 36, 249,
    62, 219, 173, 39, 14, 141, 189, 127, 185, 39, 223], rfl⟩

def sampleInput : Bytes :=
  List.replicate 64 48 ++ ((utf8Encode (py "\n\x7b\"previous_hash\":\"")).getD [] ++
    (List.replicate 64 48 ++ (utf8Encode (py "\",\"sequence\":1\x7d")).getD []))

def sampleRuntime : Runtime where
  sha256 m := if m = sampleInput then sampleDigest else zeroDigest
  printable _ := true
  nesting := 10

def sampleFields : List (PyStr × Json) :=
  [(py "sequence", .int 1), (py "event_hash", .str (hexdigest sampleDigest)),
    (py "previous_hash", .str genesis)]

def sampleSorted : List (PyStr × Json) := Json.sortKeys (Json.normFields sampleFields)

def fileOf (st : Json.Style) (record : Json) : Option Bytes :=
  match Json.encode st sampleRuntime.nesting record with
  | .ok text => utf8Encode (text ++ [cp '\n'])
  | .error _ => none

-- The same record, written in two ways.
theorem last_hash_commits_to_records_spaced :
    (records sampleRuntime (fileOf canonicalStyle (.obj sampleFields))).map Json.norm =
      (records sampleRuntime (fileOf ⟨true, false, false, false⟩ (.obj sampleFields))).map Json.norm := by
  have hrecords : records sampleRuntime (fileOf canonicalStyle (.obj sampleFields)) = [.obj sampleSorted] ∧
      records sampleRuntime (fileOf ⟨true, false, false, false⟩ (.obj sampleFields)) =
        [.obj sampleFields] := by decide +kernel
  have hinputs : ∀ fields ∈ [sampleSorted, sampleFields],
      get (py "previous_hash") fields = .str genesis ∧
        digestInput sampleRuntime genesis (.obj (Json.erase (py "event_hash") fields)) = .ok sampleInput := by
    decide +kernel
  have hinput : ∀ fields previous m, fields ∈ [sampleSorted, sampleFields] →
      get (py "previous_hash") fields = .str previous →
      digestInput sampleRuntime previous (.obj (Json.erase (py "event_hash") fields)) = .ok m →
        m = sampleInput := by
    intro fields previous m hmem hprevious hm
    obtain ⟨hgenesis, hdigest⟩ := hinputs fields hmem
    obtain rfl := Json.str.inj (hgenesis.symm.trans hprevious)
    exact Except.ok.inj (hm.symm.trans hdigest)
  have hhashed : hashed sampleRuntime (fileOf canonicalStyle (.obj sampleFields)) ∪
      hashed sampleRuntime (fileOf ⟨true, false, false, false⟩ (.obj sampleFields)) ⊆ {sampleInput} := by
    rintro m (⟨fields, previous, hmem, hprevious, hm⟩ | ⟨fields, previous, hmem, hprevious, hm⟩)
    · rw [hrecords.1, List.mem_singleton, Json.obj.injEq] at hmem
      exact hinput fields previous m (by simp [hmem]) hprevious hm
    · rw [hrecords.2, List.mem_singleton, Json.obj.injEq] at hmem
      exact hinput fields previous m (by simp [hmem]) hprevious hm
  exact last_hash_commits_to_records sampleRuntime _ _ 1 (hexdigest sampleDigest) (by decide +kernel)
    (by decide +kernel) ((Set.subsingleton_singleton.anti hhashed).injOn _)

end Commit

end V91Core.Measurement
