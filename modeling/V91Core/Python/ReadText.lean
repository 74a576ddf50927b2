import V91Core.Python.Exc
import V91Core.Python.TextFile

namespace V91Core.Python

-- `open(path, encoding="utf-8").read()`.
def readText (content : Bytes) : Except PyExc PyStr := ofOption .unicodeDecode (decodedText content)

theorem readText_encode (s : PyStr) (content : Bytes) (h : utf8Encode s = some content) :
    readText content = .ok (universalNewlines false s) := by
  rw [readText, decodedText, utf8Decode_encode false s content h]
  rfl

theorem universalNewlines_id (s : PyStr) (h : cp '\r' ∉ s) : universalNewlines false s = s := by
  induction s with
  | nil => rfl
  | cons c s ih =>
      obtain ⟨hc, hs⟩ := not_or.mp (List.mem_cons.not.mp h)
      rw [universalNewlines, Bool.and_false, if_neg Bool.false_ne_true, if_neg (Ne.symm hc), ih hs]

section SplitLines

-- Where `str.splitlines` cuts.
def isLineBoundary (c : CodePoint) : Bool :=
  (0x0A ≤ c.val && c.val ≤ 0x0D) || (0x1C ≤ c.val && c.val ≤ 0x1E) || c.val = 0x85 || c.val = 0x2028 || c.val = 0x2029

-- `str.splitlines()`: the flag says that the previous character was a carriage return,
-- which a line feed belongs to.
def splitlines : Bool → PyStr → List PyStr
  | _, [] => []
  | afterCr, c :: rest =>
      if c = cp '\n' && afterCr then splitlines false rest
      else if isLineBoundary c then [] :: splitlines (c = cp '\r') rest
      else match splitlines false rest with
        | [] => [[c]]
        | line :: lines => (c :: line) :: lines

theorem splitlines_boundary (line rest : PyStr) (c : CodePoint) (hline : ∀ d ∈ line, isLineBoundary d = false)
    (hc : isLineBoundary c = true) (hcr : c ≠ cp '\r') :
    splitlines false (line ++ c :: rest) = line :: splitlines false rest := by
  induction line with
  | nil =>
      rw [List.nil_append, splitlines, Bool.and_false, if_neg Bool.false_ne_true, if_pos hc, decide_eq_false hcr]
  | cons d line ih =>
      obtain ⟨hd, hrest⟩ := List.forall_mem_cons.mp hline
      rw [List.cons_append, splitlines, Bool.and_false, if_neg Bool.false_ne_true, if_neg (by simp [hd]), ih hrest]

theorem splitlines_line (line rest : PyStr) (hline : ∀ d ∈ line, isLineBoundary d = false) :
    splitlines false (line ++ [cp '\n'] ++ rest) = line :: splitlines false rest := by
  rw [List.append_assoc]
  exact splitlines_boundary line rest (cp '\n') hline (by decide) (by decide)

-- The first place where a text is cut.
theorem exists_cut (text : PyStr) (h : ¬∀ c ∈ text, isLineBoundary c = false) :
    ∃ line c rest, text = line ++ c :: rest ∧ (∀ d ∈ line, isLineBoundary d = false) ∧ isLineBoundary c = true := by
  induction text with
  | nil => exact absurd (fun c hc => by cases hc) h
  | cons d text ih =>
      by_cases hd : isLineBoundary d = true
      · exact ⟨[], d, text, rfl, by simp, hd⟩
      · have hfalse : isLineBoundary d = false := by simpa using hd
        obtain ⟨line, c, rest, rfl, hline, hc⟩ := ih fun hall => h (List.forall_mem_cons.mpr ⟨hfalse, hall⟩)
        exact ⟨d :: line, c, rest, rfl, List.forall_mem_cons.mpr ⟨hfalse, hline⟩, hc⟩

end SplitLines

section Torn

-- The start of the bytes of an ASCII text is the start of the text.
theorem ascii_prefix (s : PyStr) (hascii : isAscii s = true) (bs part : Bytes) (h : utf8Encode s = some bs)
    (hpart : part <+: bs) : ∃ p q, s = p ++ q ∧ utf8Decode false part = some p := by
  induction s generalizing bs part with
  | nil =>
      obtain rfl := Option.some.inj h
      rw [List.prefix_nil.mp hpart]
      exact ⟨[], [], rfl, rfl⟩
  | cons c s ih =>
      simp only [isAscii, List.all_cons, Bool.and_eq_true, CodePoint.isAscii, decide_eq_true_eq] at hascii
      have hchar : utf8EncodeChar c = some [.ofNat c.val] := by
        rw [utf8EncodeChar, isSurrogate_of_ascii c hascii.1, if_neg Bool.false_ne_true, if_pos hascii.1]
      rw [utf8Encode, hchar] at h
      cases htail : utf8Encode s with
      | none =>
          rw [htail] at h
          cases h
      | some tail =>
          rw [htail] at h
          obtain rfl := Option.some.inj h
          cases part with
          | nil => exact ⟨[], c :: s, rfl, rfl⟩
          | cons b part =>
              obtain ⟨rfl, hrest⟩ := List.cons_prefix_cons.mp hpart
              obtain ⟨p, q, rfl, hp⟩ := ih hascii.2 tail part htail hrest
              refine ⟨c :: p, q, rfl, ?_⟩
              have hdecode := utf8DecodeChar_encode false c [.ofNat c.val] part hchar
              rw [← List.singleton_append, utf8Decode_cons false _ c part hdecode, hp]
              rfl

theorem utf8Decode_eq_nil (bs : Bytes) (h : utf8Decode false bs = some []) : bs = [] := by
  cases bs with
  | nil => rfl
  | cons b bs =>
      cases hchar : utf8DecodeChar false (b :: bs) with
      | none => simp [utf8Decode, decodeWith, hchar] at h
      | some pair =>
          rw [utf8Decode_cons false _ pair.1 pair.2 hchar] at h
          obtain ⟨t, -, ht⟩ := Option.map_eq_some_iff.mp h
          cases ht

theorem readLines_decoded (content : Bytes) (raw : PyStr) (h : utf8Decode false content = some raw) :
    readLines content = ⟨splitLines (universalNewlines false raw), false⟩ := by
  unfold readLines
  rw [h]

variable (text p q : PyStr) (hline : IsLine text) (h : text ++ [cp '\n'] = p ++ q) (hp : p ≠ [])

include hline h hp

-- What has been written of a line is a part of it or all of it.
theorem part_or_line : IsLine p ∨ p = text ++ [cp '\n'] := by
  rcases List.eq_nil_or_concat q with rfl | ⟨rest, c, rfl⟩
  · exact .inr (by simpa using h.symm)
  · rw [List.concat_eq_append, ← List.append_assoc] at h
    obtain ⟨htext, -⟩ := List.append_inj' h rfl
    refine .inl ⟨hp, fun d hd => hline.printable d ?_⟩
    rw [htext]
    exact List.mem_append_left rest hd

-- It is one more line behind the lines that are there.
theorem readLines_torn (content part : Bytes) (hread : (readLines content).error = false)
    (hopen : openLine (some content) = []) (hpart : utf8Decode false part = some p) :
    readLines (content ++ part) = ⟨(readLines content).lines ++ [p], false⟩ := by
  obtain ⟨old, hold⟩ := decodedText_of_readLines content hread
  rw [openLine, Option.bind_some, hold] at hopen
  have hended : old = [] ∨ old.getLast? = some (cp '\n') := by
    have hcomplete := completePart_append_lastPart old
    have hterminated := completePart_terminated old
    rw [show lastPart old = [] from hopen, List.append_nil] at hcomplete
    rwa [hcomplete] at hterminated
  have hsplit : splitLines p = [p] := by
    rcases part_or_line text p q hline h hp with hpart | rfl
    · exact splitLines_single p hp fun c hc => (hpart.no_breaks c hc).1
    · rw [splitLines_no_break text fun c hc => (hline.no_breaks c hc).1]
      rfl
  have hsame : ∀ afterCr, universalNewlines afterCr p = p := by
    intro afterCr
    rcases part_or_line text p q hline h hp with hpart | rfl
    · have hplain := universalNewlines_of_no_breaks p hpart.no_breaks hp afterCr []
      rwa [List.append_nil, universalNewlines, List.append_nil] at hplain
    · exact universalNewlines_of_no_breaks text hline.no_breaks hline.ne_nil afterCr [cp '\n']
  obtain ⟨raw, hraw, rfl⟩ := Option.map_eq_some_iff.mp hold
  have hdecoded : utf8Decode false (content ++ part) = some (raw ++ p) := by
    rw [utf8Decode_append false content part raw hraw, hpart]
    rfl
  rw [readLines_decoded content raw hraw, readLines_decoded _ _ hdecoded, universalNewlines_append, hsame,
    splitLines_append _ p hended, hsplit]

end Torn

-- The byte 255 is no UTF-8.
theorem readLines_undecodable : readLines [0xFF] = ⟨[], true⟩ := by
  have hchar : utf8DecodeChar false [0xFF] = none := by decide +kernel
  have hincomplete : Incomplete [0xFF] = false := by
    rw [Incomplete]
    decide
  have hstart : decodeStart 1 [0xFF] = none := by
    rw [decodeStart, hchar]
    · simp only [hincomplete, Bool.false_eq_true, if_false]
    · intro h
      cases h
  have hwhole : utf8Decode false [0xFF] = none := by decide +kernel
  have hchunks : ([0xFF] : Bytes).length / chunkSize + 1 = 1 := by decide
  have htake : ([0xFF] : Bytes).take (1 * chunkSize) = [0xFF] := by decide
  rw [readLines, hwhole, hchunks, goodText]
  simp only [htake, List.length_singleton, hstart]
  rfl

end V91Core.Python
