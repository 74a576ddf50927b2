import V91Core.Effect.Eval
import V91Core.Effect.Raises
import V91Core.Json.Chars
import V91Core.Json.Loads
import V91Core.Measurement.Commit
import V91Core.Python.ReadText

namespace V91Core.Measurement

open V91Core.Python V91Core.Effect

section Main

variable (rt : Runtime)

-- What `main` prints and the exit code it returns.
structure Exit where
  code : Nat
  output : List (PyStr × Json)

def statusText : Status → PyStr
  | .emptyLedger => py "EMPTY_LEDGER"
  | .chainValid => py "CHAIN_VALID"

def LedgerState.report (state : LedgerState) : List (PyStr × Json) :=
  [(py "status", .str (statusText state.status)), (py "events", .int state.events),
    (py "last_hash", .str state.lastHash)]

def failedClosed (e : PyExc) : List (PyStr × Json) :=
  [(py "status", .str (py "FAILED_CLOSED")), (py "error", .str e.text)]

-- `except (MeasurementError, OSError)` of `main`; any other exception leaves it.
def exitOf : Except PyExc (List (PyStr × Json)) → Except PyExc Exit
  | .ok report => .ok ⟨0, report⟩
  | .error (.measurementError msg) => .ok ⟨2, failedClosed (.measurementError msg)⟩
  | .error e => if e.isOSError then .ok ⟨2, failedClosed e⟩ else .error e

-- `main(["--verify-only"])`, where `rt` is the interpreter in the `verify_ledger` that it calls.
def verifyOnly (file : Option Bytes) : Except PyExc Exit := exitOf ((verifyLedger rt file).map LedgerState.report)

end Main

section Lines

variable (rt : Runtime)

-- The lines are a correct chain from this number and hash on.
def ChainLines : Nat → PyStr → List PyStr → Prop
  | _, _, [] => True
  | sequence, previous, line :: lines =>
      ∃ fields digest, Json.loads rt.nesting line = .ok (.obj fields) ∧ GoodRecord rt sequence previous fields digest ∧
        ChainLines (sequence + 1) digest lines

-- The file is UTF-8 and its lines, the last of which may lack its line feed, are a chain.
def ChainFile (content : Bytes) : Prop :=
  (readLines content).error = false ∧ ChainLines rt 1 genesis (readLines content).lines

-- The record can be encoded as strict JSON in UTF-8, below the frames of `event_hash` and
-- `canonical_json`.
def Hashable (record : Json) : Prop :=
  Json.Fits false (rt.below 2).nesting record ∧ Json.AllChars (fun c => c.isSurrogate = false) record

-- A line that is either accepted or refused with one of the two exceptions that are caught.
def Handled (sequence : Nat) (previous line : PyStr) : Prop :=
  strip line = [] ∨ (∃ msg left, Json.loads rt.nesting line = .error (.unreadable msg left)) ∨
    ∃ record, Json.loads rt.nesting line = .ok record ∧ ∀ fields, record = .obj fields →
      Json.eqInt sequence (get (py "sequence") (Json.erase (py "event_hash") fields)) = true →
      get (py "previous_hash") (Json.erase (py "event_hash") fields) = .str previous →
        Hashable rt (.obj (Json.erase (py "event_hash") fields))

-- The first line that is no good record is handled, and the bytes after the last line that
-- is read are UTF-8 if all lines are good.
def FailsClosed : Nat → PyStr → List PyStr → Bool → Prop
  | _, _, [], undecodable => undecodable = false
  | sequence, previous, line :: lines, undecodable =>
      Handled rt sequence previous line ∧ ∀ fields digest, Json.loads rt.nesting line = .ok (.obj fields) →
        GoodRecord rt sequence previous fields digest → FailsClosed (sequence + 1) digest lines undecodable

-- The exceptions that `verify_ledger` raises as a `MeasurementError`.
def IsClosed (e : PyExc) : Prop := ∃ msg, readError e = .measurementError msg

theorem isClosed_measurement (msg : PyStr) : IsClosed (.measurementError msg) := ⟨msg, rfl⟩

theorem not_isClosed (e : PyExc) (h : readError e = e) (hne : ∀ msg, e ≠ .measurementError msg) : ¬ IsClosed e := by
  rintro ⟨msg, hmsg⟩
  exact hne msg (h.symm.trans hmsg)

theorem raises_require (ok : Bool) (msg : PyStr) : Raises (require ok (.measurementError msg)) IsClosed := by
  cases ok with
  | false => exact raises_error _ _ (isClosed_measurement msg)
  | true => exact raises_ok _ _

theorem eventHash_isOk_iff (previous : PyStr) (hprevious : isAscii previous = true) (payload : Json) :
    (∃ digest, eventHash rt previous payload = .ok digest) ↔ Hashable rt payload := by
  refine Iff.trans ?_ (Json.dumps_utf8_isOk (rt.below 2) canonicalStyle rfl payload)
  simp only [dumps_eq_ok, eventHash_eq_ok, digestInput_eq_ok, bind_eq_ok, encodeUtf8_eq_ok, Runtime.below_nesting]
  constructor
  · rintro ⟨digest, m, ⟨body, bytes, hbody, hbytes, -⟩, -⟩
    exact ⟨bytes, body, hbody, hbytes⟩
  · rintro ⟨bytes, body, hbody, hbytes⟩
    exact ⟨_, _, ⟨body, bytes, hbody, hbytes, hprevious, rfl⟩, rfl⟩

-- What cannot be hashed raises an exception that is not caught.
theorem eventHash_raises (previous : PyStr) (payload : Json) :
    Raises (eventHash rt previous payload) fun e => ¬ IsClosed e := by
  have hencode : ∀ o : Option Bytes, Raises (ofOption .unicodeEncode o) fun e => ¬ IsClosed e := by
    intro o
    cases o with
    | none => exact raises_error _ _ (not_isClosed _ rfl nofun)
    | some bytes => exact raises_ok _ _
  have hdumps : Raises (canonicalJson (rt.below 2) payload) fun e => ¬ IsClosed e := by
    intro e h
    unfold canonicalJson dumps at h
    split at h
    · cases h
    all_goals
      obtain rfl := Except.error.inj h
      exact not_isClosed _ rfl nofun
  refine raises_bind _ _ _ ?_ fun _ _ => raises_ok _ _
  refine raises_bind _ _ _ ?_ fun _ _ => ?_
  · unfold encodeAscii
    split
    · exact raises_ok _ _
    · exact raises_error _ _ (not_isClosed _ rfl nofun)
  · refine raises_bind _ _ _ hdumps fun body _ => ?_
    exact raises_bind _ _ _ (hencode _) fun _ _ => raises_ok _ _

theorem checkRecord_closed_iff (lineNumber sequence : Nat) (previous : PyStr) (hprevious : isAscii previous = true)
    (fields : List (PyStr × Json)) : Raises (checkRecord rt lineNumber sequence previous (.obj fields)) IsClosed ↔
      (Json.eqInt sequence (get (py "sequence") (Json.erase (py "event_hash") fields)) = true →
        get (py "previous_hash") (Json.erase (py "event_hash") fields) = .str previous →
          Hashable rt (.obj (Json.erase (py "event_hash") fields))) := by
  unfold checkRecord
  dsimp only
  cases hsequence : Json.eqInt sequence (get (py "sequence") (Json.erase (py "event_hash") fields)) with
  | false => exact iff_of_true (raises_error _ _ (isClosed_measurement _)) nofun
  | true =>
      by_cases hlinked : get (py "previous_hash") (Json.erase (py "event_hash") fields) = .str previous
      · rw [decide_eq_true hlinked, ← eventHash_isOk_iff rt previous hprevious]
        cases hhash : eventHash rt previous (.obj (Json.erase (py "event_hash") fields)) with
        | error e =>
            refine iff_of_false (fun h => ?_) (fun h => ?_)
            · exact eventHash_raises rt previous _ e hhash (h e rfl)
            · obtain ⟨digest, hdigest⟩ := h rfl hlinked
              cases hdigest
        | ok digest =>
            refine iff_of_true ?_ fun _ _ => ⟨digest, rfl⟩
            refine raises_bind _ _ _ (raises_require _ _) fun _ _ => ?_
            refine raises_bind _ _ _ (raises_require _ _) fun _ _ => ?_
            refine raises_bind _ _ _ (raises_ok _ _) fun _ _ => ?_
            exact raises_bind _ _ _ (raises_require _ _) fun _ _ => raises_ok _ _
      · rw [decide_eq_false hlinked]
        exact iff_of_true (raises_error _ _ (isClosed_measurement _)) fun _ h => absurd h hlinked

theorem verifyLine_closed_iff (lineNumber sequence : Nat) (previous line : PyStr)
    (hprevious : isAscii previous = true) :
    Raises (verifyLine rt lineNumber sequence previous line) IsClosed ↔ Handled rt sequence previous line := by
  by_cases hblank : strip line = []
  · refine iff_of_true ?_ (.inl hblank)
    rw [verifyLine, decide_eq_false (not_not_intro hblank)]
    exact raises_error _ _ (isClosed_measurement _)
  · rw [verifyLine, decide_eq_true hblank, Handled, or_iff_right hblank]
    cases hload : Json.loads rt.nesting line with
    | error e =>
        cases e with
        | unreadable msg left =>
            refine iff_of_true ?_ (.inl ⟨msg, left, rfl⟩)
            have htext : loadsText rt line = .error (.jsonDecode msg (line.length - left)) := by rw [loadsText, hload]
            rw [htext]
            exact raises_error _ _ ⟨_, rfl⟩
        | tooManyDigits | recursion | stuck =>
            have htext : ∃ e, loadsText rt line = .error e ∧ ¬ IsClosed e := by
              rw [loadsText, hload]
              exact ⟨_, rfl, not_isClosed _ rfl (by simp)⟩
            obtain ⟨e, htext, hescapes⟩ := htext
            refine iff_of_false (fun h => hescapes (h e ?_)) ?_
            · rw [htext]
              rfl
            · rintro (⟨_, _, h⟩ | ⟨_, h, _⟩)
              · cases h
              · cases h
    | ok record =>
        have htext : loadsText rt line = .ok record := (loadsText_eq_ok rt line record).mpr hload
        rw [htext]
        cases record with
        | obj fields =>
            refine (checkRecord_closed_iff rt lineNumber sequence previous hprevious fields).trans ?_
            constructor
            · intro h
              refine .inr ⟨_, rfl, fun fields' hfields => ?_⟩
              rwa [← Json.obj.inj hfields]
            · rintro (⟨_, _, h⟩ | ⟨_, h, hhashable⟩)
              · cases h
              · exact hhashable fields (Except.ok.inj h).symm
        | _ =>
            refine iff_of_true (raises_error _ _ (isClosed_measurement _)) (.inr ⟨_, rfl, fun fields h => ?_⟩)
            cases h

theorem goodRecord_ascii (sequence : Nat) (previous : PyStr) (fields : List (PyStr × Json)) (digest : PyStr)
    (h : GoodRecord rt sequence previous fields digest) : isAscii digest = true := by
  obtain ⟨m, -, rfl⟩ := (eventHash_eq_ok _ _ _ _).mp h.hashed
  exact isAscii_hexdigest _

theorem genesis_ascii : isAscii genesis = true := by decide

-- The loop and the end of the iteration.
def readToEnd (undecodable : Bool) (lineNumber sequence : Nat) (previous : PyStr) (lines : List PyStr) :
    Except PyExc (Nat × PyStr) := do
  let state ← verifyLines rt lineNumber sequence previous lines
  if undecodable then .error .unicodeDecode else .ok state

theorem readToEnd_cons (undecodable : Bool) (lineNumber sequence : Nat) (previous line : PyStr) (lines : List PyStr) :
    readToEnd rt undecodable lineNumber sequence previous (line :: lines) =
      (verifyLine rt lineNumber sequence previous line >>= fun digest =>
        readToEnd rt undecodable (lineNumber + 1) (sequence + 1) digest lines) := by
  rw [readToEnd, verifyLines]
  cases verifyLine rt lineNumber sequence previous line with
  | error e => rfl
  | ok digest => rfl

theorem readToEnd_closed_iff (undecodable : Bool) (lines : List PyStr) (lineNumber sequence : Nat) (previous : PyStr)
    (hprevious : isAscii previous = true) :
    Raises (readToEnd rt undecodable lineNumber sequence previous lines) IsClosed ↔
      FailsClosed rt sequence previous lines undecodable := by
  induction lines generalizing lineNumber sequence previous with
  | nil =>
      rw [FailsClosed]
      cases undecodable with
      | false => exact iff_of_true (raises_ok _ _) rfl
      | true =>
          refine iff_of_false (fun h => ?_) nofun
          exact not_isClosed .unicodeDecode rfl nofun (h _ rfl)
  | cons line lines ih =>
      rw [readToEnd_cons, FailsClosed, ← verifyLine_closed_iff rt lineNumber sequence previous line hprevious]
      cases hline : verifyLine rt lineNumber sequence previous line with
      | error e =>
          have hbad : ∀ fields digest, Json.loads rt.nesting line = .ok (.obj fields) →
              ¬ GoodRecord rt sequence previous fields digest := by
            intro fields digest hload hgood
            have hline' := (verifyLine_eq_ok rt lineNumber sequence previous line digest).mpr
              ⟨fun hblank => Json.loads_blank rt.nesting line hblank _ hload, fields, hload, hgood⟩
            cases hline.symm.trans hline'
          constructor
          · exact fun h => ⟨raises_error _ _ (h e rfl), fun fields digest hload hgood =>
              absurd hgood (hbad fields digest hload)⟩
          · exact fun h => raises_error _ _ (h.1 e rfl)
      | ok digest =>
          obtain ⟨-, fields, hload, hgood⟩ := (verifyLine_eq_ok rt lineNumber sequence previous line digest).mp hline
          refine (ih (lineNumber + 1) (sequence + 1) digest (goodRecord_ascii rt _ _ _ _ hgood)).trans ?_
          constructor
          · refine fun h => ⟨raises_ok _ _, fun fields' digest' hload' hgood' => ?_⟩
            obtain rfl : fields = fields' := Json.obj.inj (Except.ok.inj (hload.symm.trans hload'))
            obtain rfl : digest = digest' := Except.ok.inj (hgood.hashed.symm.trans hgood'.hashed)
            exact h
          · exact fun h => h.2 fields digest hload hgood

-- The loop returns on a chain, and then it has counted the lines.
theorem verifyLines_sound (lines : List PyStr) (lineNumber sequence : Nat) (previous : PyStr) (state : Nat × PyStr)
    (h : verifyLines rt lineNumber sequence previous lines = .ok state) :
    ChainLines rt sequence previous lines ∧ state.1 = sequence + lines.length := by
  induction lines generalizing lineNumber sequence previous with
  | nil =>
      obtain rfl := Except.ok.inj h
      exact ⟨trivial, rfl⟩
  | cons line lines ih =>
      obtain ⟨digest, hline, hlines⟩ := (bind_eq_ok _ _ _).mp h
      obtain ⟨-, fields, hload, hgood⟩ := (verifyLine_eq_ok rt lineNumber sequence previous line digest).mp hline
      obtain ⟨hchain, hcount⟩ := ih (lineNumber + 1) (sequence + 1) digest hlines
      refine ⟨⟨fields, digest, hload, hgood, hchain⟩, ?_⟩
      rw [hcount, List.length_cons]
      omega

theorem verifyLines_complete (lines : List PyStr) (lineNumber sequence : Nat) (previous : PyStr)
    (h : ChainLines rt sequence previous lines) :
    ∃ state, verifyLines rt lineNumber sequence previous lines = .ok state := by
  induction lines generalizing lineNumber sequence previous with
  | nil => exact ⟨_, rfl⟩
  | cons line lines ih =>
      obtain ⟨fields, digest, hload, hgood, hrest⟩ := h
      have hline : strip line ≠ [] := fun hblank => Json.loads_blank rt.nesting line hblank _ hload
      obtain ⟨state, hstate⟩ := ih (lineNumber + 1) (sequence + 1) digest hrest
      refine ⟨state, (bind_eq_ok _ _ _).mpr ⟨digest, ?_, hstate⟩⟩
      exact (verifyLine_eq_ok rt lineNumber sequence previous line digest).mpr ⟨hline, fields, hload, hgood⟩

theorem readToEnd_isOk_iff (content : Bytes) : (∃ state, readToEnd rt (readLines content).error 1 1 genesis
    (readLines content).lines = .ok state) ↔ ChainFile rt content := by
  simp only [readToEnd, bind_eq_ok]
  constructor
  · rintro ⟨state, read, hlines, h⟩
    split at h
    · cases h
    · next hread =>
        rw [Bool.not_eq_true] at hread
        exact ⟨hread, (verifyLines_sound rt _ _ _ _ read hlines).1⟩
  · rintro ⟨hread, hchain⟩
    obtain ⟨state, hlines⟩ := verifyLines_complete rt _ 1 1 genesis hchain
    refine ⟨state, state, hlines, ?_⟩
    rw [if_neg (by rw [hread]; exact Bool.false_ne_true)]

theorem verifyContent_eq (content : Bytes) : verifyContent rt content =
    ((readToEnd rt (readLines content).error 1 1 genesis (readLines content).lines).mapError readError).map
      fun state => ⟨.chainValid, state.1 - 1, state.2⟩ := by
  rw [verifyContent, readToEnd]
  cases verifyLines rt 1 1 genesis (readLines content).lines with
  | error e => rfl
  | ok state =>
      rw [ok_bind]
      cases (readLines content).error with
      | false => rfl
      | true => rfl

end Lines

end V91Core.Measurement
