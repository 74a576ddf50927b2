import V91Core.Python.Utf8
import Mathlib.Data.List.Infix

namespace V91Core.Python

-- What `for line in fh` produces: the lines, and whether a `UnicodeDecodeError`
-- ends the iteration.
structure LineStream where
  lines : List PyStr
  error : Bool
deriving DecidableEq

-- The bytes are the start of a character that the next chunk may complete.
def Incomplete : Bytes → Bool
  | [b] => 0xC2 ≤ b.toNat && b.toNat < 0xF5
  | [b, b₁] =>
      IsContinuation b₁ &&
        ((0xE0 ≤ b.toNat && b.toNat < 0xF0 && (b.toNat ≠ 0xE0 || 0xA0 ≤ b₁.toNat) &&
            (b.toNat ≠ 0xED || b₁.toNat < 0xA0)) ||
          (0xF0 ≤ b.toNat && b.toNat < 0xF5 && (b.toNat ≠ 0xF0 || 0x90 ≤ b₁.toNat) &&
            (b.toNat ≠ 0xF4 || b₁.toNat < 0x90)))
  | [b, b₁, b₂] => Incomplete [b, b₁] && 0xF0 ≤ b.toNat && IsContinuation b₂
  | _ => false

-- The incremental decoder before the end of the file.
def decodeStart : Nat → Bytes → Option PyStr
  | _, [] => some []
  | 0, _ :: _ => none
  | fuel + 1, bs =>
      match utf8DecodeChar false bs with
      | some (c, rest) => (decodeStart fuel rest).map (c :: ·)
      | none => if Incomplete bs then some [] else none

-- The text of the chunks before the first one that cannot be decoded.
def goodText (chunk : Nat) (content : Bytes) : Nat → Nat → PyStr → PyStr
  | 0, _, text => text
  | fuel + 1, count, text =>
      let start := content.take (count * chunk)
      match decodeStart start.length start with
      | some text => goodText chunk content fuel (count + 1) text
      | none => text

def isTerminated (line : PyStr) : Bool := line.getLast? = some (cp '\n')

-- `TextIOWrapper` reads the file in chunks of this size.
def chunkSize : Nat := 8192

-- `open(path, encoding="utf-8")` read line by line. A trailing carriage return
-- is kept back until the next chunk shows what follows it.
def readLines (content : Bytes) : LineStream :=
  match utf8Decode false content with
  | some text => ⟨splitLines (universalNewlines false text), false⟩
  | none =>
      let text := goodText chunkSize content (content.length / chunkSize + 1) 1 []
      let text := if text.getLast? = some (cp '\r') then text.dropLast else text
      ⟨(splitLines (universalNewlines false text)).filter isTerminated, true⟩

section Append

def endsCr : Bool → PyStr → Bool
  | afterCr, [] => afterCr
  | _, c :: rest => endsCr (c = cp '\r') rest

theorem universalNewlines_append (afterCr : Bool) (s t : PyStr) :
    universalNewlines afterCr (s ++ t) =
      universalNewlines afterCr s ++ universalNewlines (endsCr afterCr s) t := by
  induction s generalizing afterCr with
  | nil => rfl
  | cons c s ih =>
      simp only [List.cons_append, universalNewlines, endsCr]
      split
      · rename_i hc
        simp only [Bool.and_eq_true, decide_eq_true_eq] at hc
        rw [ih, hc.1]
        rfl
      split
      · rename_i hcr
        rw [ih, hcr]
        rfl
      · rename_i hcr
        rw [ih, decide_eq_false hcr]
        rfl

theorem universalNewlines_of_no_breaks (s : PyStr) (h : ∀ c ∈ s, c ≠ cp '\n' ∧ c ≠ cp '\r')
    (hne : s ≠ []) (afterCr : Bool) (t : PyStr) :
    universalNewlines afterCr (s ++ t) = s ++ universalNewlines false t := by
  induction s generalizing afterCr with
  | nil => exact absurd rfl hne
  | cons c s ih =>
      obtain ⟨⟨hn, hr⟩, hs⟩ := List.forall_mem_cons.mp h
      simp only [List.cons_append, universalNewlines, hn, hr, decide_false, Bool.false_and,
        Bool.false_eq_true, if_false]
      cases s with
      | nil => rfl
      | cons d s => rw [ih hs (by simp)]

-- The text after the last line break.
def lastPart (text : PyStr) : PyStr := text.rtakeWhile (· ≠ cp '\n')

theorem splitLines_no_break (s : PyStr) (h : ∀ c ∈ s, c ≠ cp '\n') (t : PyStr) :
    splitLines (s ++ cp '\n' :: t) = (s ++ [cp '\n']) :: splitLines t := by
  induction s with
  | nil => simp [splitLines]
  | cons c s ih =>
      obtain ⟨hc, hs⟩ := List.forall_mem_cons.mp h
      simp only [List.cons_append, splitLines, hc, if_false, ih hs]

theorem splitLines_ne_nil (s : PyStr) (h : s ≠ []) : splitLines s ≠ [] := by
  cases s with
  | nil => exact absurd rfl h
  | cons c s =>
      simp only [splitLines]
      split
      · simp
      · split <;> simp

theorem splitLines_append (s t : PyStr) (h : s = [] ∨ s.getLast? = some (cp '\n')) :
    splitLines (s ++ t) = splitLines s ++ splitLines t := by
  induction s with
  | nil => rfl
  | cons c s ih =>
      have hlast := h.resolve_left (by simp)
      by_cases hs : s = []
      · subst hs
        obtain rfl := by simpa using hlast
        simp [splitLines]
      · rw [List.getLast?_cons_of_ne_nil hs] at hlast
        have hrest := ih (.inr hlast)
        have hne := splitLines_ne_nil s hs
        simp only [List.cons_append, splitLines, hrest]
        split
        · rfl
        · cases hl : splitLines s with
          | nil => exact absurd hl hne
          | cons line lines => rfl

-- A text is its complete lines and the part after the last line break.
def completePart (text : PyStr) : PyStr := text.rdropWhile (· ≠ cp '\n')

theorem completePart_append_lastPart (text : PyStr) : completePart text ++ lastPart text = text :=
  List.rdropWhile_append_rtakeWhile

theorem completePart_terminated (text : PyStr) :
    completePart text = [] ∨ (completePart text).getLast? = some (cp '\n') := by
  by_cases h : completePart text = []
  · exact .inl h
  · right
    have hlast := List.rdropWhile_last_not (fun c : CodePoint => decide (c ≠ cp '\n')) text h
    rw [List.getLast?_eq_getLast_of_ne_nil h]
    simpa [completePart] using hlast

theorem lastPart_no_break (text : PyStr) : ∀ c ∈ lastPart text, c ≠ cp '\n' := by
  intro c hc
  simpa using List.mem_rtakeWhile_imp hc

theorem splitLines_single (s : PyStr) (hne : s ≠ []) (h : ∀ c ∈ s, c ≠ cp '\n') : splitLines s = [s] := by
  induction s with
  | nil => exact absurd rfl hne
  | cons c s ih =>
      obtain ⟨hc, hs⟩ := List.forall_mem_cons.mp h
      rw [splitLines, if_neg hc]
      cases s with
      | nil => rfl
      | cons d s => rw [ih (by simp) hs]

theorem universalNewlines_no_cr (afterCr : Bool) (s : PyStr) :
    ∀ c ∈ universalNewlines afterCr s, c ≠ cp '\r' := by
  induction s generalizing afterCr with
  | nil => simp [universalNewlines]
  | cons c s ih =>
      simp only [universalNewlines]
      split
      · exact ih _
      split
      · exact List.forall_mem_cons.mpr ⟨by decide, ih _⟩
      · exact List.forall_mem_cons.mpr ⟨‹_›, ih _⟩

-- The text of a file as its lines are read.
def decodedText (content : Bytes) : Option PyStr :=
  (utf8Decode false content).map (universalNewlines false)

theorem readLines_eq (content : Bytes) (text : PyStr) (h : decodedText content = some text) :
    readLines content = ⟨splitLines (completePart text) ++
      if lastPart text = [] then [] else [lastPart text], false⟩ := by
  obtain ⟨raw, hraw, rfl⟩ := Option.map_eq_some_iff.mp h
  have hsplit := splitLines_append _ (lastPart (universalNewlines false raw))
    (completePart_terminated (universalNewlines false raw))
  rw [completePart_append_lastPart] at hsplit
  unfold readLines
  rw [hraw]
  simp only [hsplit]
  split
  · rename_i hnil
    rw [hnil]
    rfl
  · rename_i hne
    rw [splitLines_single _ hne (lastPart_no_break _)]

theorem decodedText_of_readLines (content : Bytes) (h : (readLines content).error = false) :
    ∃ text, decodedText content = some text := by
  unfold readLines at h
  split at h
  · rename_i raw hraw
    exact ⟨_, by rw [decodedText, hraw]; rfl⟩
  · cases h

-- A line as `fh.write(text + "\n")` adds it to a file.
structure IsLine (line : PyStr) : Prop where
  ne_nil : line ≠ []
  printable : ∀ c ∈ line, 0x20 ≤ c.val

theorem IsLine.no_breaks {line : PyStr} (h : IsLine line) : ∀ c ∈ line, c ≠ cp '\n' ∧ c ≠ cp '\r' := by
  intro c hc
  have := h.printable c hc
  constructor <;>
    · rintro rfl
      revert this
      decide

theorem decodedText_append (content bs : Bytes) (text line : PyStr) (hline : IsLine line)
    (h : decodedText content = some text) (hbs : utf8Encode (line ++ [cp '\n']) = some bs) :
    decodedText (content ++ bs) = some (text ++ line ++ [cp '\n']) := by
  obtain ⟨raw, hraw, rfl⟩ := Option.map_eq_some_iff.mp h
  have hend : universalNewlines false [cp '\n'] = [cp '\n'] := rfl
  rw [decodedText, utf8Decode_append false content bs raw hraw, utf8Decode_encode false _ bs hbs,
    Option.map_some, Option.map_some, universalNewlines_append,
    universalNewlines_of_no_breaks line hline.no_breaks hline.ne_nil, hend, List.append_assoc]

theorem completePart_line (text line : PyStr) : completePart (text ++ line ++ [cp '\n']) = text ++ line ++ [cp '\n'] ∧
    lastPart (text ++ line ++ [cp '\n']) = [] := by
  constructor
  · exact List.rdropWhile_concat_neg _ _ _ (by simp)
  · exact List.rtakeWhile_concat_neg _ _ _ (by simp)

-- The appended line takes over what the last line break left over.
theorem readLines_append (content bs : Bytes) (text line : PyStr) (hline : IsLine line)
    (h : decodedText content = some text) (hbs : utf8Encode (line ++ [cp '\n']) = some bs) :
    readLines (content ++ bs) =
      ⟨splitLines (completePart text) ++ [lastPart text ++ line ++ [cp '\n']], false⟩ := by
  obtain ⟨hcomplete, hlast⟩ := completePart_line text line
  rw [readLines_eq _ _ (decodedText_append content bs text line hline h hbs), hcomplete, hlast, if_pos rfl,
    List.append_nil]
  congr 1
  have hbreaks : ∀ c ∈ lastPart text ++ line, c ≠ cp '\n' := by
    intro c hc
    exact (List.mem_append.mp hc).elim (lastPart_no_break text c) fun h => (hline.no_breaks c h).1
  calc splitLines (text ++ line ++ [cp '\n'])
      = splitLines (completePart text ++ (lastPart text ++ line ++ [cp '\n'])) := by
        rw [← List.append_assoc, ← List.append_assoc, completePart_append_lastPart]
    _ = splitLines (completePart text) ++ splitLines (lastPart text ++ line ++ [cp '\n']) :=
        splitLines_append _ _ (completePart_terminated text)
    _ = splitLines (completePart text) ++ [lastPart text ++ line ++ [cp '\n']] := by
        rw [splitLines_no_break _ hbreaks, splitLines]

-- What the next append puts on the same line as its record.
def openLine (file : Option Bytes) : PyStr :=
  match file.bind decodedText with
  | some text => lastPart text
  | none => []

theorem openLine_breaks (file : Option Bytes) : ∀ c ∈ openLine file, c ≠ cp '\n' ∧ c ≠ cp '\r' := by
  unfold openLine
  split
  · rename_i text htext
    obtain ⟨content, -, hdecoded⟩ := Option.bind_eq_some_iff.mp htext
    obtain ⟨raw, -, rfl⟩ := Option.map_eq_some_iff.mp hdecoded
    intro c hc
    refine ⟨lastPart_no_break _ c hc, universalNewlines_no_cr false raw c ?_⟩
    exact (List.rtakeWhile_suffix _ _).subset hc
  · simp

-- A file that ends with a line break takes the line as a line of its own.
theorem readLines_append_line (content bs : Bytes) (line : PyStr) (hline : IsLine line)
    (hread : (readLines content).error = false) (hopen : openLine (some content) = [])
    (hbs : utf8Encode (line ++ [cp '\n']) = some bs) :
    readLines (content ++ bs) = ⟨(readLines content).lines ++ [line ++ [cp '\n']], false⟩ ∧
      openLine (some (content ++ bs)) = [] := by
  obtain ⟨text, htext⟩ := decodedText_of_readLines content hread
  rw [openLine, Option.bind_some, htext] at hopen
  have hlast : lastPart text = [] := hopen
  constructor
  · rw [readLines_append content bs text line hline htext hbs, readLines_eq content text htext, hlast,
      if_pos rfl, List.append_nil, List.nil_append]
  · rw [openLine, Option.bind_some, decodedText_append content bs text line hline htext hbs]
    exact (completePart_line text line).2

end Append

end V91Core.Python
