import V91Core.Effect.Raises
import V91Core.Json.Loads
import V91Core.Ledger.Commit
import V91Core.Python.ReadText

namespace V91Core.Ledger

open V91Core.Python V91Core.Effect

section Reading

variable (rt : Runtime)

-- The `try` block without the reports about what does not match.
def readRecord (prev : Json) (line : PyStr) : Except PyExc Json := do
  let record ← loadsText rt line
  let seq ← subscript record (py "seq")
  let prevHash ← subscript record (py "prev_hash")
  let _ ← compareValue rt prevHash prev
  let timestamp ← subscript record (py "timestamp")
  let payload ← subscript record (py "payload")
  let digest ← computeHash rt prevHash seq timestamp payload
  let hash ← subscript record (py "hash")
  let _ ← compareValue rt hash (.str digest)
  .ok hash

-- Such reports do not change how the block ends.
def Ends (x : Check α) (result : Except PyExc α) : Prop := ∀ errors, (x.exec errors).1 = result

theorem ends_lift_bind (x : Except PyExc α) (f : α → Check β) (g : α → Except PyExc β)
    (h : ∀ a, Ends (f a) (g a)) : Ends (liftM x >>= f) (x >>= g) := by
  intro errors
  rw [exec_bind, exec_lift]
  cases x with
  | error e => rfl
  | ok a => exact h a errors

theorem ends_expect_bind (ok : Bool) (lineNo : Nat) (kind : PyStr) (f : Unit → Check β) (result : Except PyExc β)
    (h : Ends (f ()) result) : Ends (expect ok lineNo kind >>= f) result := by
  intro errors
  rw [exec_bind, exec_expect]
  exact h _

theorem ends_pure (a : α) : Ends (pure a) (.ok a) := fun _ => rfl

theorem checkRecord_ends (expectedSeq : Nat) (prev : Json) (lineNo : Nat) (line : PyStr) :
    Ends (checkRecord rt expectedSeq prev lineNo line) (readRecord rt prev line) := by
  unfold checkRecord readRecord
  repeat (first
    | exact ends_pure _
    | refine ends_lift_bind _ _ _ fun _ => ?_
    | refine ends_expect_bind _ _ _ _ _ ?_)

theorem raises_ofOption (e : PyExc) (o : Option α) (P : PyExc → Prop) (he : P e) : Raises (ofOption e o) P := by
  cases o with
  | none => exact raises_error e P he
  | some a => exact raises_ok a P

-- A line whose JSON is nested more deeply than the interpreter's recursion limit allows.
def TooDeep (line : PyStr) : Prop := Json.loads rt.nesting line = .error .recursion

theorem loadsText_raises (line : PyStr) :
    Raises (loadsText rt line) fun e => isMalformed e = true ∨ e = .recursionError ∧ TooDeep rt line := by
  intro e h
  unfold loadsText at h
  split at h
  · cases h
  · obtain rfl := Except.error.inj h
    exact .inl rfl
  · obtain rfl := Except.error.inj h
    exact .inl rfl
  · next hdeep =>
      obtain rfl := Except.error.inj h
      exact .inr ⟨rfl, hdeep⟩
  · next hstuck => exact absurd hstuck (Json.loads_ne_stuck rt.nesting line)

theorem subscript_raises (j : Json) (key : PyStr) : Raises (subscript j key) fun e => isMalformed e = true := by
  cases j with
  | obj fields => exact raises_ofOption .keyError _ _ rfl
  | _ => exact raises_error _ _ rfl

theorem compareValue_raises (value other : Json) :
    Raises (compareValue rt value other) fun e => isMalformed e = true := by
  cases other with
  | str s => exact raises_ofOption .typeError _ _ rfl
  | _ => exact raises_error _ _ rfl

-- A payload that has been loaded can be dumped, so only its characters can be refused.
theorem computeHash_raises (prevHash seq timestamp payload : Json) (h : Json.Fits true rt.nesting payload) :
    Raises (computeHash rt prevHash seq timestamp payload) fun e => isMalformed e = true := by
  obtain ⟨body, hbody⟩ := (Json.encode_isOk_iff .canonical rt.nesting payload).mpr h
  have hdumps : dumps rt .canonical payload = .ok body := (dumps_eq_ok _ _ _ _).mpr hbody
  intro e he
  rw [computeHash, chainMessage, hdumps] at he
  cases hencode : encodeUtf8 (chainText rt prevHash seq timestamp body) with
  | ok message =>
      rw [show ((Except.ok body : Except PyExc PyStr) >>= fun body =>
        encodeUtf8 (chainText rt prevHash seq timestamp body)) = .ok message from hencode] at he
      cases he
  | error e' =>
      rw [show ((Except.ok body : Except PyExc PyStr) >>= fun body =>
        encodeUtf8 (chainText rt prevHash seq timestamp body)) = .error e' from hencode] at he
      obtain rfl := Except.error.inj he
      exact raises_ofOption .unicodeEncode _ (fun e => isMalformed e = true) rfl e' hencode

-- A record that the `try` block can read to its end after this hash.
structure Legible (prev : Json) (line : PyStr) (r : Record) : Prop where
  stored : storedRecord rt line = some r
  previous : ∃ p, prev = .str p ∧ isAscii p = true
  prevHash : isAscii (Json.toStr rt.printable r.prevHash) = true
  hash : isAscii (Json.toStr rt.printable r.hash) = true
  computed : ∃ digest, computeHash rt r.prevHash r.seq r.timestamp r.payload = .ok digest

theorem compareValue_isOk_iff (value other : Json) : (∃ same, compareValue rt value other = .ok same) ↔
    isAscii (Json.toStr rt.printable value) = true ∧ ∃ s, other = .str s ∧ isAscii s = true := by
  cases other with
  | str s =>
      rw [compareValue, compareDigest]
      split
      · next h =>
          rw [Bool.and_eq_true] at h
          exact iff_of_true ⟨_, rfl⟩ ⟨h.1, s, rfl, h.2⟩
      · next h =>
          refine iff_of_false (by simp [ofOption]) ?_
          rintro ⟨hvalue, s', hs, hascii⟩
          apply h
          rw [Json.str.inj hs, hvalue, hascii]
          rfl
  | _ => exact iff_of_false (by simp [compareValue]) (by simp)

theorem readRecord_eq_ok (prev : Json) (line : PyStr) (hash : Json) :
    readRecord rt prev line = .ok hash ↔ ∃ r, Legible rt prev line r ∧ r.hash = hash := by
  have hdigest : ∀ digest prevHash seq timestamp payload, computeHash rt prevHash seq timestamp payload = .ok digest →
      isAscii digest = true := by
    intro digest prevHash seq timestamp payload h
    obtain ⟨m, -, rfl⟩ := (computeHash_eq_ok rt _ _ _ _ _).mp h
    exact isAscii_hexdigest _
  simp only [readRecord, bind_eq_ok, Except.ok.injEq]
  constructor
  · rintro ⟨record, hload, seq, hs, prevHash, hp, linked, hlink, timestamp, ht, payload, hpay, digest, hd, h, hh,
      matched, hm, rfl⟩
    obtain ⟨fields, rfl, hseq⟩ := (subscript_eq_ok _ _ _).mp hs
    have hlookup : ∀ key v, subscript (.obj fields) key = .ok v → Json.lookup key fields = some v := by
      intro key v hv
      obtain ⟨_, hobj, hv⟩ := (subscript_eq_ok _ _ _).mp hv
      rwa [Json.obj.inj hobj]
    obtain ⟨hprevHash, hprevious⟩ := (compareValue_isOk_iff rt _ _).mp ⟨linked, hlink⟩
    refine ⟨⟨seq, timestamp, prevHash, payload, h⟩, ⟨?_, hprevious, hprevHash, ?_, digest, hd⟩, rfl⟩
    · exact (storedRecord_eq_some _ _ _).mpr ⟨fields, hload, hseq, hlookup _ _ ht, hlookup _ _ hp, hlookup _ _ hpay,
        hlookup _ _ hh⟩
    · exact ((compareValue_isOk_iff rt _ _).mp ⟨matched, hm⟩).1
  · rintro ⟨r, ⟨hstored, hprevious, hprevHash, hhash, digest, hd⟩, rfl⟩
    obtain ⟨fields, hload, hs, ht, hp, hpay, hh⟩ := (storedRecord_eq_some _ _ _).mp hstored
    have hsub : ∀ key v, Json.lookup key fields = some v → subscript (.obj fields) key = .ok v :=
      fun key v hv => (subscript_eq_ok _ _ _).mpr ⟨fields, rfl, hv⟩
    obtain ⟨linked, hlink⟩ := (compareValue_isOk_iff rt _ _).mpr ⟨hprevHash, hprevious⟩
    obtain ⟨matched, hm⟩ := (compareValue_isOk_iff rt _ (.str digest)).mpr ⟨hhash, digest, rfl, hdigest _ _ _ _ _ hd⟩
    exact ⟨_, hload, _, hsub _ _ hs, _, hsub _ _ hp, linked, hlink, _, hsub _ _ ht, _, hsub _ _ hpay, digest, hd, _,
      hsub _ _ hh, matched, hm, rfl⟩

theorem readRecord_raises (prev : Json) (line : PyStr) :
    Raises (readRecord rt prev line) fun e => isMalformed e = true ∨ e = .recursionError ∧ TooDeep rt line := by
  refine raises_bind _ _ _ (loadsText_raises rt line) fun record hload => ?_
  refine raises_bind _ _ _ ((subscript_raises _ _).mono _ _ _ fun _ => .inl) fun seq _ => ?_
  refine raises_bind _ _ _ ((subscript_raises _ _).mono _ _ _ fun _ => .inl) fun prevHash _ => ?_
  refine raises_bind _ _ _ ((compareValue_raises rt _ _).mono _ _ _ fun _ => .inl) fun _ _ => ?_
  refine raises_bind _ _ _ ((subscript_raises _ _).mono _ _ _ fun _ => .inl) fun timestamp _ => ?_
  refine raises_bind _ _ _ ((subscript_raises _ _).mono _ _ _ fun _ => .inl) fun payload hpayload => ?_
  have hfits : Json.Fits true rt.nesting payload := by
    obtain ⟨fields, rfl, hlookup⟩ := (subscript_eq_ok _ _ _).mp hpayload
    exact Json.fits_lookup true rt.nesting fields _ payload hlookup
      (Json.loads_sound _ _ _ ((loadsText_eq_ok rt line _).mp hload)).2
  refine raises_bind _ _ _ ((computeHash_raises rt _ _ _ _ hfits).mono _ _ _ fun _ => .inl) fun digest _ => ?_
  refine raises_bind _ _ _ ((subscript_raises _ _).mono _ _ _ fun _ => .inl) fun hash _ => ?_
  refine raises_bind _ _ _ ((compareValue_raises rt _ _).mono _ _ _ fun _ => .inl) fun _ _ => ?_
  exact raises_ok _ _

theorem readRecord_tooDeep (prev : Json) (line : PyStr) (h : TooDeep rt line) :
    readRecord rt prev line = .error .recursionError := by
  have hload : loadsText rt line = .error .recursionError := by rw [loadsText, h]
  rw [readRecord, hload]
  rfl

end Reading

section Reports

variable (rt : Runtime)

-- Nothing stops the loop from outside the `try` block: it does not meet a line that is
-- nested too deeply, and it meets bytes that are not UTF-8 only after a malformed line.
def Reported : Json → List PyStr → Bool → Prop
  | _, [], undecodable => undecodable = false
  | prev, line :: lines, undecodable =>
      if strip line = [] then Reported prev lines undecodable
      else ¬ TooDeep rt line ∧ ∀ r, Legible rt prev line r → Reported r.hash lines undecodable

theorem verifyLines_reports_iff (lines : List PyStr) (undecodable : Bool) (lineNo : Nat) (p : Progress) :
    (∃ q stopped, verifyLines rt lineNo p lines = .ok (q, stopped) ∧ (undecodable = true → stopped = true)) ↔
      Reported rt p.prev lines undecodable := by
  induction lines generalizing lineNo p with
  | nil =>
      rw [Reported]
      constructor
      · rintro ⟨q, stopped, h, hstopped⟩
        obtain ⟨-, rfl⟩ := Prod.mk.inj (Except.ok.inj h)
        simpa using hstopped
      · rintro rfl
        exact ⟨p, false, rfl, nofun⟩
  | cons line lines ih =>
      by_cases hblank : strip line = []
      · rw [verifyLines, if_pos hblank, Reported, if_pos hblank]
        exact ih (lineNo + 1) p
      · rw [verifyLines, if_neg hblank, Reported, if_neg hblank]
        have hends := checkRecord_ends rt p.records p.prev lineNo line p.errors
        rcases hexec : (checkRecord rt p.records p.prev lineNo line).exec p.errors with ⟨e | hash, errors⟩
        · rw [hexec] at hends
          have hillegible : ∀ r, ¬ Legible rt p.prev line r := by
            intro r hr
            rw [(readRecord_eq_ok rt p.prev line r.hash).mpr ⟨r, hr, rfl⟩] at hends
            cases hends
          by_cases hmalformed : isMalformed e = true
          · have hshallow : ¬ TooDeep rt line := by
              intro hdeep
              rw [readRecord_tooDeep rt p.prev line hdeep] at hends
              obtain rfl := Except.error.inj hends
              cases hmalformed
            refine iff_of_true ⟨_, true, if_pos hmalformed, fun _ => rfl⟩ ⟨hshallow, fun r hr => ?_⟩
            exact absurd hr (hillegible r)
          · refine iff_of_false ?_ fun h => ?_
            · rintro ⟨q, stopped, h, -⟩
              dsimp only at h
              rw [if_neg hmalformed] at h
              cases h
            · rcases readRecord_raises rt p.prev line e hends.symm with hcaught | ⟨-, hdeep⟩
              · exact hmalformed hcaught
              · exact h.1 hdeep
        · rw [hexec] at hends
          obtain ⟨r, hr, rfl⟩ := (readRecord_eq_ok rt p.prev line hash).mp hends.symm
          have hshallow : ¬ TooDeep rt line := by
            intro hdeep
            rw [readRecord_tooDeep rt p.prev line hdeep] at hends
            cases hends
          refine (ih (lineNo + 1) ⟨p.records + 1, errors, r.hash⟩).trans ?_
          constructor
          · refine fun h => ⟨hshallow, fun r' hr' => ?_⟩
            obtain rfl := Option.some.inj (hr.stored.symm.trans hr'.stored)
            exact h
          · exact fun h => h.2 r hr

theorem verifyChain_reports_iff (content : Bytes) : (∃ report, verifyChain rt (some content) = .ok report) ↔
    Reported rt (.str genesis) (readLines content).lines (readLines content).error := by
  rw [← verifyLines_reports_iff rt _ _ 1 ⟨0, [], .str genesis⟩, verifyChain]
  cases hlines : verifyLines rt 1 ⟨0, [], .str genesis⟩ (readLines content).lines with
  | error e => exact iff_of_false (by simp) (by simp)
  | ok result =>
      obtain ⟨p, stopped⟩ := result
      dsimp only
      by_cases hread : ((readLines content).error && !stopped) = true
      · rw [if_pos hread]
        rw [Bool.and_eq_true, Bool.not_eq_true'] at hread
        refine iff_of_false (by simp) ?_
        rintro ⟨q, s, h, hstopped⟩
        obtain ⟨-, rfl⟩ := Prod.mk.inj (Except.ok.inj h)
        rw [hread.2] at hstopped
        cases hstopped hread.1
      · rw [if_neg hread]
        rw [Bool.and_eq_true, Bool.not_eq_true', not_and, Bool.not_eq_false] at hread
        exact iff_of_true ⟨_, rfl⟩ ⟨p, stopped, rfl, hread⟩

end Reports

section Exact

variable (rt : Runtime)

-- A record whose hashes are the hash of the record before it and the one of its own fields.
structure ExactRecord (index : Nat) (prev : Json) (line : PyStr) (r : Record) : Prop where
  stored : storedRecord rt line = some r
  seq : Json.eqInt index r.seq = true
  linked : r.prevHash = prev
  hashed : ∃ digest, computeHash rt r.prevHash r.seq r.timestamp r.payload = .ok digest ∧ r.hash = .str digest

-- Every line that is not blank is such a record.
def ExactLines : Nat → Json → List PyStr → Prop
  | _, _, [] => True
  | index, prev, line :: lines =>
      if strip line = [] then ExactLines index prev lines
      else ∃ r, ExactRecord rt index prev line r ∧ ExactLines (index + 1) r.hash lines

def ExactFile (content : Bytes) : Prop :=
  (readLines content).error = false ∧ ExactLines rt 0 (.str genesis) (readLines content).lines

-- The hashes of a record are texts. A number may have the digits of a hash.
structure Record.Textual (r : Record) : Prop where
  prevHash : ∃ text, r.prevHash = .str text
  hash : ∃ text, r.hash = .str text

theorem goodRecord_exact (index : Nat) (prev : Json) (line : PyStr) (r : Record)
    (hgood : GoodRecord rt index prev line r) (htext : r.Textual) : ExactRecord rt index prev line r := by
  obtain ⟨prevHash, hprevHash⟩ := htext.prevHash
  obtain ⟨hash, hhash⟩ := htext.hash
  refine ⟨hgood.stored, hgood.seq, ?_, ?_⟩
  · obtain ⟨hprev, -⟩ := (compareValue_eq_true rt _ _).mp hgood.linked
    rw [hprev, hprevHash]
    rfl
  · obtain ⟨digest, hdigest, hcompare⟩ := hgood.hashed
    obtain ⟨hsame, -⟩ := (compareValue_eq_true rt _ _).mp hcompare
    refine ⟨digest, hdigest, ?_⟩
    rw [hsame, hhash]
    rfl

theorem exactRecord_good (index : Nat) (prev : PyStr) (hprev : isAscii prev = true) (line : PyStr) (r : Record)
    (h : ExactRecord rt index (.str prev) line r) :
    GoodRecord rt index (.str prev) line r ∧ r.Textual ∧ ∃ hash, r.hash = .str hash ∧ isAscii hash = true := by
  obtain ⟨digest, hdigest, hhash⟩ := h.hashed
  have hascii : isAscii digest = true := by
    obtain ⟨m, -, rfl⟩ := (computeHash_eq_ok rt _ _ _ _ _).mp hdigest
    exact isAscii_hexdigest _
  refine ⟨⟨h.stored, h.seq, ?_, digest, hdigest, ?_⟩, ⟨⟨prev, h.linked⟩, digest, hhash⟩, digest, hhash, hascii⟩
  · rw [h.linked]
    exact (compareValue_eq_true rt _ _).mpr ⟨rfl, hprev⟩
  · rw [hhash]
    exact (compareValue_eq_true rt _ _).mpr ⟨rfl, hascii⟩

theorem exactLines_iff (lines : List PyStr) (index : Nat) (prev : PyStr) (hprev : isAscii prev = true) :
    ExactLines rt index (.str prev) lines ↔
      ∃ rs, GoodLines rt index (.str prev) lines rs ∧ ∀ r ∈ rs, r.Textual := by
  induction lines generalizing index prev with
  | nil => exact iff_of_true trivial ⟨[], .nil index _, nofun⟩
  | cons line lines ih =>
      by_cases hblank : strip line = []
      · rw [ExactLines, if_pos hblank, ih index prev hprev]
        exact exists_congr fun rs => and_congr_left fun _ => (goodLines_blank_iff rt _ _ _ _ _ hblank).symm
      · rw [ExactLines, if_neg hblank]
        constructor
        · rintro ⟨r, hr, hrest⟩
          obtain ⟨hgood, htext, hash, hhash, hascii⟩ := exactRecord_good rt index prev hprev line r hr
          rw [hhash] at hrest
          obtain ⟨rs, hrs, htexts⟩ := (ih (index + 1) hash hascii).mp hrest
          rw [← hhash] at hrs
          exact ⟨r :: rs, .record _ _ _ _ _ _ hblank hgood hrs, List.forall_mem_cons.mpr ⟨htext, htexts⟩⟩
        · rintro ⟨rs, hgood, htexts⟩
          cases hgood with
          | blank _ _ _ _ _ h _ => exact absurd h hblank
          | record _ _ _ _ r rs _ hr hrest =>
              obtain ⟨htext, hothers⟩ := List.forall_mem_cons.mp htexts
              have hexact := goodRecord_exact rt index _ line r hr htext
              obtain ⟨-, -, hash, hhash, hascii⟩ := exactRecord_good rt index prev hprev line r hexact
              rw [hhash] at hrest
              refine ⟨r, hexact, ?_⟩
              rw [hhash]
              exact (ih (index + 1) hash hascii).mpr ⟨rs, hrest, hothers⟩

theorem genesis_ascii : isAscii genesis = true := by decide

theorem exactFile_iff (content : Bytes) :
    ExactFile rt content ↔ ∃ rs, GoodFile rt content rs ∧ ∀ r ∈ rs, r.Textual := by
  rw [ExactFile, exactLines_iff rt _ 0 genesis genesis_ascii]
  constructor
  · rintro ⟨herror, rs, hgood, htexts⟩
    exact ⟨rs, ⟨herror, hgood⟩, htexts⟩
  · rintro ⟨rs, ⟨herror, hgood⟩, htexts⟩
    exact ⟨herror, rs, hgood, htexts⟩

end Exact

end V91Core.Ledger
