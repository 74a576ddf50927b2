import V91Core.Json.Loads
import V91Core.Json.Objects
import V91Core.Measurement.Commit

namespace V91Core.Measurement

open V91Core.Python

theorem verifyLines_append (rt : Runtime) (lineNumber sequence : Nat) (previous : PyStr)
    (lines more : List PyStr) : verifyLines rt lineNumber sequence previous (lines ++ more) =
      (verifyLines rt lineNumber sequence previous lines >>= fun p =>
        verifyLines rt (lineNumber + lines.length) p.1 p.2 more) := by
  induction lines generalizing lineNumber sequence previous with
  | nil => rfl
  | cons line lines ih =>
      rw [List.cons_append, verifyLines, verifyLines]
      cases verifyLine rt lineNumber sequence previous line with
      | error e => rfl
      | ok digest =>
          change verifyLines rt (lineNumber + 1) (sequence + 1) digest (lines ++ more) = _
          rw [ih, List.length_cons, Nat.add_assoc, Nat.add_comm 1]
          rfl

-- What `verify_ledger` found, for a missing file and an existing one alike.
theorem verifyLedger_eq_ok (rt : Runtime) (file : Option Bytes) (state : LedgerState)
    (h : verifyLedger rt file = .ok state) :
    state.events = (records rt file).length ∧ (readLines (file.getD [])).error = false ∧
      records rt file = (readLines (file.getD [])).lines.filterMap (parsed rt) ∧
      verifyLines rt 1 1 genesis (readLines (file.getD [])).lines = .ok (state.events + 1, state.lastHash) := by
  cases file with
  | none =>
      obtain rfl := Except.ok.inj h
      exact ⟨rfl, rfl, rfl, rfl⟩
  | some content =>
      obtain ⟨hcount, -⟩ := verifyContent_linked rt Set.univ content state h (Set.subset_univ _)
      have hevents : state.events = (records rt (some content)).length := by rw [hcount]
      rw [verifyLedger, verifyContent] at h
      split at h
      · cases h
      · rename_i next last hlines
        obtain ⟨hnext, -⟩ := verifyLines_linked rt Set.univ 1 1 next genesis last _ hlines
          (List.length_replicate ..) fun _ _ _ _ _ _ => Set.mem_univ _
        split at h
        · cases h
        · rename_i herror
          obtain rfl := Except.ok.inj h
          refine ⟨hevents, by simpa using herror, rfl, ?_⟩
          rw [Option.getD_some, hlines, show next - 1 + 1 = next by omega]

section Above

variable (rt : Runtime) (frames : Nat)

theorem eventHash_above (previous : PyStr) (payload : Json) (digest : PyStr)
    (h : eventHash (rt.below frames) previous payload = .ok digest) : eventHash rt previous payload = .ok digest := by
  obtain ⟨m, hm, hdigest⟩ := (eventHash_eq_ok _ _ _ _).mp h
  obtain ⟨body, bytes, hbody, hrest⟩ := (digestInput_eq_ok _ _ _ _).mp hm
  have hroom : (rt.below frames).nesting - 2 ≤ rt.nesting - 2 := Nat.sub_le_sub_right (Nat.sub_le _ _) 2
  refine (eventHash_eq_ok _ _ _ _).mpr ⟨m, (digestInput_eq_ok _ _ _ _).mpr ⟨body, bytes, ?_, hrest⟩, hdigest⟩
  exact Json.encode_le _ _ _ hroom payload body hbody

theorem verifyLine_above (lineNumber sequence : Nat) (previous line digest : PyStr)
    (h : verifyLine (rt.below frames) lineNumber sequence previous line = .ok digest) :
    verifyLine rt lineNumber sequence previous line = .ok digest := by
  obtain ⟨hline, fields, hload, hgood⟩ := (verifyLine_eq_ok _ _ _ _ _ _).mp h
  refine (verifyLine_eq_ok _ _ _ _ _ _).mpr ⟨hline, fields, ?_, hgood.numbered, hgood.linked, ?_, hgood.supplied⟩
  · exact Json.loads_le _ _ (Nat.sub_le _ _) line _ hload
  · exact eventHash_above rt frames _ _ digest hgood.hashed

theorem verifyLines_above (lines : List PyStr) (lineNumber sequence : Nat) (previous : PyStr) (state : Nat × PyStr)
    (h : verifyLines (rt.below frames) lineNumber sequence previous lines = .ok state) :
    verifyLines rt lineNumber sequence previous lines = .ok state := by
  induction lines generalizing lineNumber sequence previous with
  | nil => exact h
  | cons line lines ih =>
      obtain ⟨digest, hline, hlines⟩ := (bind_eq_ok _ _ _).mp h
      exact (bind_eq_ok _ _ _).mpr ⟨digest, verifyLine_above rt frames _ _ _ _ digest hline, ih _ _ digest hlines⟩

-- What is verified where little room is left is verified where there is more.
theorem verifyLedger_above (file : Option Bytes) (state : LedgerState)
    (h : verifyLedger (rt.below frames) file = .ok state) : verifyLedger rt file = .ok state := by
  cases file with
  | none => exact h
  | some content =>
      rw [verifyLedger, verifyContent] at h ⊢
      split at h
      · cases h
      · next sequence last hlines => rwa [verifyLines_above rt frames _ _ _ _ _ hlines]

end Above

section Record

theorem eventHash_congr (rt : Runtime) (previous : PyStr) (j k : Json) (h : Json.norm j = Json.norm k) :
    eventHash rt previous j = eventHash rt previous k := by
  have hencode := Json.encode_congr canonicalStyle rfl (rt.below 2).nesting j k h
  simp only [eventHash, digestInput, canonicalJson, dumps, hencode]

variable (rt : Runtime) (state : LedgerState) (recordedAt : PyStr) (snapshot : Json) (digest : PyStr)

theorem payloadFields_keys : ((payloadFields state recordedAt snapshot).map Prod.fst) =
    [py "sequence", py "previous_hash", py "recorded_at_utc", py "snapshot"] := rfl

theorem recordFields_eq : recordFields (payloadFields state recordedAt snapshot) digest =
    payloadFields state recordedAt snapshot ++ [(py "event_hash", .str digest)] := by
  refine Json.insert_append _ _ _ ?_
  rw [payloadFields_keys]
  decide

theorem recordFields_nodup :
    ((recordFields (payloadFields state recordedAt snapshot) digest).map Prod.fst).Nodup := by
  rw [recordFields_eq, List.map_append, payloadFields_keys]
  change [py "sequence", py "previous_hash", py "recorded_at_utc", py "snapshot", py "event_hash"].Nodup
  decide

theorem erase_recordFields :
    Json.erase (py "event_hash") (recordFields (payloadFields state recordedAt snapshot) digest) =
      payloadFields state recordedAt snapshot := by
  have hkeys : ∀ f ∈ payloadFields state recordedAt snapshot, f.1 ≠ py "event_hash" := by
    intro f hf
    have hmem : f.1 ∈ (payloadFields state recordedAt snapshot).map Prod.fst := List.mem_map_of_mem hf
    rw [payloadFields_keys] at hmem
    revert hmem
    generalize f.1 = key
    have hall : ∀ key ∈ [py "sequence", py "previous_hash", py "recorded_at_utc", py "snapshot"],
        key ≠ py "event_hash" := by decide
    exact hall key
  rw [recordFields_eq, Json.erase, List.filter_append, List.filter_eq_self.mpr (by simpa using hkeys),
    List.filter_cons_of_neg (by simp), List.filter_nil, List.append_nil]

theorem lookup_recordFields (key : PyStr) (v : Json)
    (h : Json.lookup key (recordFields (payloadFields state recordedAt snapshot) digest) = some v) :
    Json.lookup key (Json.sortKeys (Json.normFields
      (recordFields (payloadFields state recordedAt snapshot) digest))) = some (Json.norm v) := by
  rw [Json.lookup_norm key _ (recordFields_nodup state recordedAt snapshot digest), h]
  rfl

-- The record as it is read back.
def storedFields : List (PyStr × Json) :=
  Json.sortKeys (Json.normFields (recordFields (payloadFields state recordedAt snapshot) digest))

theorem storedFields_good
    (hhash : eventHash rt state.lastHash (.obj (payloadFields state recordedAt snapshot)) = .ok digest) :
    GoodRecord rt (state.events + 1) state.lastHash (storedFields state recordedAt snapshot digest) digest := by
  have hlookup := lookup_recordFields state recordedAt snapshot digest
  have herase := Json.norm_erase_norm (py "event_hash") _ (recordFields_nodup state recordedAt snapshot digest)
  rw [erase_recordFields] at herase
  constructor
  · rw [get, Json.lookup_erase _ _ _ (by decide), storedFields, hlookup (py "sequence") (.int (state.events + 1)) rfl]
    simp [Json.norm, Json.eqInt]
  · rw [get_eq_str, Json.lookup_erase _ _ _ (by decide)]
    exact hlookup _ (.str state.lastHash) rfl
  · rwa [storedFields, eventHash_congr rt state.lastHash _ _ herase]
  · exact hlookup _ (.str digest) rfl

theorem recordLine_eq_ok (record : Json) (bs : Bytes) : recordLine rt record = .ok bs ↔
    ∃ text, Json.encode canonicalStyle rt.nesting record = .ok text ∧ utf8Encode (text ++ [cp '\n']) = some bs := by
  simp only [recordLine, bind_eq_ok, canonicalJson, dumps_eq_ok, encodeUtf8_eq_ok]

theorem recordLine_above (frames : Nat) (record : Json) (bs : Bytes)
    (h : recordLine (rt.below frames) record = .ok bs) : recordLine rt record = .ok bs := by
  obtain ⟨text, htext, hbs⟩ := (recordLine_eq_ok _ _ _).mp h
  exact (recordLine_eq_ok _ _ _).mpr ⟨text, Json.encode_le _ _ _ (Nat.sub_le _ _) record text htext, hbs⟩

-- The line that `append_snapshot` writes is read back as the next record.
theorem verifyLine_recordLine (hsnapshot : Json.Wf snapshot) (text : PyStr) (lineNumber : Nat)
    (hhash : eventHash rt state.lastHash (.obj (payloadFields state recordedAt snapshot)) = .ok digest)
    (htext : Json.encode canonicalStyle rt.nesting
      (.obj (recordFields (payloadFields state recordedAt snapshot) digest)) = .ok text) :
    verifyLine rt lineNumber (state.events + 1) state.lastHash (text ++ [cp '\n']) = .ok digest ∧
      parsed rt (text ++ [cp '\n']) = some (.obj (storedFields state recordedAt snapshot digest)) ∧
      IsLine text := by
  obtain ⟨rest, hstart⟩ := Json.encode_obj_start _ _ _ _ htext
  have hwf : Json.Wf (.obj (recordFields (payloadFields state recordedAt snapshot) digest)) := by
    refine ⟨recordFields_nodup state recordedAt snapshot digest, (Json.wfFields_iff _).mpr ?_⟩
    rw [recordFields_eq]
    simpa [payloadFields, Json.Wf] using hsnapshot
  have hload := Json.loads_padded canonicalStyle rfl rt.nesting _ hwf text [] [cp '\n'] htext (by simp)
    (by simpa using (by decide : Json.isWs (cp '\n') = true))
  rw [List.nil_append] at hload
  refine ⟨(verifyLine_eq_ok _ _ _ _ _ _).mpr ⟨?_, _, hload, ?_⟩, ?_, ?_⟩
  · intro hblank
    have := (strip_eq_nil_iff _).mp hblank (cp '{') (by simp [hstart])
    revert this
    decide
  · exact storedFields_good rt state recordedAt snapshot digest hhash
  · rw [parsed, (loadsText_eq_ok _ _ _).mpr hload]
    rfl
  · exact ⟨by simp [hstart], Json.encode_printable canonicalStyle _ _ _ htext⟩

end Record

-- Opening the file for appending creates it without a record.
theorem verifyLedger_opened (rt : Runtime) (file : Option Bytes) (state : LedgerState)
    (h : verifyLedger rt file = .ok state) :
    verifyLedger rt (some (file.getD [])) = .ok ⟨.chainValid, state.events, state.lastHash⟩ ∧
      openLine (some (file.getD [])) = openLine file ∧
      records rt (some (file.getD [])) = records rt file := by
  cases file with
  | none =>
      obtain rfl := Except.ok.inj h
      exact ⟨rfl, rfl, rfl⟩
  | some content =>
      obtain ⟨hcount, -⟩ := verifyContent_linked rt Set.univ content state h (Set.subset_univ _)
      rw [Option.getD_some, h]
      exact ⟨by rw [hcount], rfl, rfl⟩

-- A valid ledger that ends with a line break stays one when the next record is
-- appended.
theorem verifyLedger_appended (rt : Runtime) (file : Option Bytes) (state : LedgerState) (recordedAt : PyStr)
    (snapshot : Json) (digest : PyStr) (bs : Bytes) (hverify : verifyLedger rt file = .ok state)
    (hopen : openLine file = []) (hsnapshot : Json.Wf snapshot)
    (hhash : eventHash rt state.lastHash (.obj (payloadFields state recordedAt snapshot)) = .ok digest)
    (hline : recordLine rt (.obj (recordFields (payloadFields state recordedAt snapshot) digest)) = .ok bs) :
    verifyLedger rt (some (file.getD [] ++ bs)) = .ok ⟨.chainValid, state.events + 1, digest⟩ ∧
      openLine (some (file.getD [] ++ bs)) = [] ∧
      records rt (some (file.getD [] ++ bs)) =
        records rt file ++ [.obj (storedFields state recordedAt snapshot digest)] := by
  obtain ⟨text, htext, hbs⟩ := (recordLine_eq_ok _ _ _).mp hline
  obtain ⟨hevents, hread, hrecords, hlines⟩ := verifyLedger_eq_ok rt file state hverify
  obtain ⟨hnew, hparsed, hisLine⟩ := verifyLine_recordLine rt state recordedAt snapshot digest hsnapshot text
    (1 + (readLines (file.getD [])).lines.length) hhash htext
  have hopen' : openLine (some (file.getD [])) = [] := by
    cases file with
    | none => rfl
    | some content => exact hopen
  obtain ⟨hlast, hclosed⟩ := readLines_append_line (file.getD []) bs text hisLine hread hopen' hbs
  have hverified : verifyLines rt 1 1 genesis
      ((readLines (file.getD [])).lines ++ [text ++ [cp '\n']]) = .ok (state.events + 1 + 1, digest) := by
    rw [verifyLines_append, hlines]
    change verifyLines rt _ (state.events + 1) state.lastHash [text ++ [cp '\n']] = _
    rw [verifyLines, hnew]
    rfl
  refine ⟨?_, hclosed, ?_⟩
  · rw [verifyLedger, verifyContent, hlast, hverified]
    rfl
  · rw [records, hlast, List.filterMap_append, hrecords]
    exact congrArg _ (by rw [List.filterMap_cons_some hparsed, List.filterMap_nil])

end V91Core.Measurement
