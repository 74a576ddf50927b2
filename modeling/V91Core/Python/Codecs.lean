import V91Core.Json.Surrogates
import V91Core.Python.Exc

namespace V91Core.Python

-- The encodings that `json.detect_encoding` tells apart.
inductive Encoding where
  | utf8
  | utf8Sig
  | utf16
  | utf16Le
  | utf16Be
  | utf32
  | utf32Le
  | utf32Be
deriving DecidableEq

def detectEncoding (b : Bytes) : Encoding :=
  if [0x00, 0x00, 0xFE, 0xFF] <+: b ∨ [0xFF, 0xFE, 0x00, 0x00] <+: b then .utf32
  else if [0xFE, 0xFF] <+: b ∨ [0xFF, 0xFE] <+: b then .utf16
  else if [0xEF, 0xBB, 0xBF] <+: b then .utf8Sig
  else match b with
    | b₀ :: b₁ :: b₂ :: b₃ :: _ =>
        if b₀ = 0 then if b₁ ≠ 0 then .utf16Be else .utf32Be
        else if b₁ = 0 then if b₂ ≠ 0 ∨ b₃ ≠ 0 then .utf16Le else .utf32Le
        else .utf8
    | [b₀, b₁] => if b₀ = 0 then .utf16Be else if b₁ = 0 then .utf16Le else .utf8
    | _ => .utf8

section Decoders

variable (big : Bool)

def utf16Units : Bytes → Option PyStr
  | [] => some []
  | [_] => none
  | a :: b :: bs =>
      let n := if big then 256 * a.toNat + b.toNat else 256 * b.toNat + a.toNat
      (utf16Units bs).map (chr n :: ·)

-- With the error handler "surrogatepass" a unit that is not one of a pair stands for itself.
def utf16Decode (bs : Bytes) : Option PyStr := (utf16Units big bs).map Json.joinPairs

def utf32Decode : Bytes → Option PyStr
  | [] => some []
  | a :: b :: c :: d :: bs =>
      let n := if big then 16777216 * a.toNat + 65536 * b.toNat + 256 * c.toNat + d.toNat
        else 16777216 * d.toNat + 65536 * c.toNat + 256 * b.toNat + a.toNat
      if n < 0x110000 then (utf32Decode bs).map (chr n :: ·) else none
  | _ => none

end Decoders

-- `b.decode(encoding, "surrogatepass")`, where `none` is a `UnicodeDecodeError`. The
-- encodings without a byte order take it from the mark in front.
def decodeAs (b : Bytes) : Encoding → Option PyStr
  | .utf8 => utf8Decode true b
  | .utf8Sig => utf8Decode true (b.drop 3)
  | .utf16 => utf16Decode (b.head? = some 0xFE) (b.drop 2)
  | .utf16Le => utf16Decode false b
  | .utf16Be => utf16Decode true b
  | .utf32 => utf32Decode (b.head? = some 0x00) (b.drop 4)
  | .utf32Le => utf32Decode false b
  | .utf32Be => utf32Decode true b

def decodeDetected (b : Bytes) : Option PyStr := decodeAs b (detectEncoding b)

-- `json.loads` of `bytes`. A second byte order mark is not looked for.
def loadsBytes (rt : Runtime) (b : Bytes) : Except PyExc Json := do
  let text ← ofOption .unicodeDecode (decodeDetected b)
  if text.head? = some (chr 0xFEFF) then .error (.jsonDecode "Expecting value" 0) else loadsText rt text

-- `str(exc)` of a `JSONDecodeError` about this text.
def jsonDecodeText (text : PyStr) (msg : String) (pos : Nat) : PyStr :=
  let read := text.take pos
  let line := read.count (cp '\n') + 1
  let column := (read.rtakeWhile (· ≠ cp '\n')).length + 1
  py msg ++ py ": line " ++ natText line ++ py " column " ++ natText column ++ py " (char " ++ natText pos ++ py ")"

section Replace

-- The first two bytes of a character that may be well formed.
def opensCharacter (b b₁ : UInt8) : Bool :=
  0xE0 ≤ b.toNat && b.toNat < 0xF5 && decide (IsContinuation b₁) && (b ≠ 0xE0 || 0xA0 ≤ b₁.toNat) &&
    (b ≠ 0xED || b₁.toNat < 0xA0) && (b ≠ 0xF0 || 0x90 ≤ b₁.toNat) && (b ≠ 0xF4 || b₁.toNat < 0x90)

-- How many bytes in front of a broken text one U+FFFD stands for.
def brokenLength : Bytes → Nat
  | b :: b₁ :: rest =>
      if opensCharacter b b₁ then
        if 0xF0 ≤ b.toNat ∧ ∃ b₂ ∈ rest.head?, IsContinuation b₂ then 3 else 2
      else 1
  | _ => 1

def decodeReplacing : Nat → Bytes → PyStr
  | _, [] => []
  | 0, _ :: _ => []
  | fuel + 1, bs =>
      match utf8DecodeChar false bs with
      | some (c, rest) => c :: decodeReplacing fuel rest
      | none => chr 0xFFFD :: decodeReplacing fuel (bs.drop (brokenLength bs))

-- `b.decode(errors="replace")`.
def decodeReplace (b : Bytes) : PyStr := decodeReplacing b.length b

theorem isSurrogate_chr (n : Nat) (hn : n < 0x110000) (h : n < 0xD800 ∨ 0xE000 ≤ n) : (chr n).isSurrogate = false := by
  have hval : (chr n).val = n := Nat.mod_eq_of_lt hn
  rw [Json.isSurrogate_eq_false, hval]
  exact h

theorem utf8DecodeChar_not_surrogate (bs rest : Bytes) (c : CodePoint) (h : utf8DecodeChar false bs = some (c, rest)) :
    c.isSurrogate = false := by
  rcases bs with _ | ⟨b, bs⟩
  · cases h
  · have hb := b.toNat_lt
    simp only [utf8DecodeChar] at h
    split_ifs at h with h₁ h₂ h₃ h₄ h₅
    · obtain ⟨rfl, -⟩ := by simpa using h
      exact isSurrogate_chr _ (by omega) (by omega)
    · rcases bs with _ | ⟨b₁, bs⟩
      · cases h
      · simp only [Option.ite_none_right_eq_some, Option.some.injEq, Prod.mk.injEq] at h
        obtain ⟨hcont, rfl, -⟩ := h
        exact isSurrogate_chr _ (by omega) (by omega)
    · rcases bs with _ | ⟨b₁, _ | ⟨b₂, bs⟩⟩
      · cases h
      · cases h
      · simp only [Option.ite_none_right_eq_some, Option.some.injEq, Prod.mk.injEq, false_or] at h
        obtain ⟨⟨hcont, hcont', -, hrange⟩, rfl, -⟩ := h
        exact isSurrogate_chr _ (by omega) hrange
    · rcases bs with _ | ⟨b₁, _ | ⟨b₂, _ | ⟨b₃, bs⟩⟩⟩
      · cases h
      · cases h
      · cases h
      · simp only [Option.ite_none_right_eq_some, Option.some.injEq, Prod.mk.injEq] at h
        obtain ⟨⟨-, -, -, hlow, hhigh⟩, rfl, -⟩ := h
        exact isSurrogate_chr _ hhigh (by omega)

-- Every byte may be read, and a text that can be written comes of it.
theorem decodeReplace_encodable (b : Bytes) : ∀ c ∈ decodeReplace b, c.isSurrogate = false := by
  have hall : ∀ fuel bs, ∀ c ∈ decodeReplacing fuel bs, c.isSurrogate = false := by
    intro fuel
    induction fuel with
    | zero =>
        intro bs c hc
        cases bs <;> cases hc
    | succ fuel ih =>
        intro bs c hc
        cases bs with
        | nil => cases hc
        | cons b bs =>
            simp only [decodeReplacing] at hc
            split at hc
            · next d rest hd =>
                rcases List.mem_cons.mp hc with rfl | hc
                · exact utf8DecodeChar_not_surrogate _ _ _ hd
                · exact ih _ c hc
            · rcases List.mem_cons.mp hc with rfl | hc
              · decide
              · exact ih _ c hc
  exact hall b.length b

end Replace

example : (decodeReplace [0x41, 0xE2, 0x82, 0x41, 0xFF]).map (·.val) = [0x41, 0xFFFD, 0x41, 0xFFFD] := by decide

end V91Core.Python
