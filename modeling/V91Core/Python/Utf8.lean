import V91Core.Python.Text

namespace V91Core.Python

-- `str.encode("utf-8")` of one character: a lone surrogate has no encoding.
def utf8EncodeChar (c : CodePoint) : Option Bytes :=
  if c.isSurrogate then none
  else if c.val < 0x80 then some [.ofNat c.val]
  else if c.val < 0x800 then some [.ofNat (0xC0 + c.val / 64), .ofNat (0x80 + c.val % 64)]
  else if c.val < 0x10000 then
    some [.ofNat (0xE0 + c.val / 4096), .ofNat (0x80 + c.val / 64 % 64), .ofNat (0x80 + c.val % 64)]
  else
    some [.ofNat (0xF0 + c.val / 262144), .ofNat (0x80 + c.val / 4096 % 64),
      .ofNat (0x80 + c.val / 64 % 64), .ofNat (0x80 + c.val % 64)]

def utf8Encode : PyStr → Option Bytes
  | [] => some []
  | c :: s =>
      match utf8EncodeChar c, utf8Encode s with
      | some head, some tail => some (head ++ tail)
      | _, _ => none

abbrev IsContinuation (b : UInt8) : Prop := 0x80 ≤ b.toNat ∧ b.toNat < 0xC0

-- One character and the bytes after it. `pass` is the error handler
-- "surrogatepass", which lets the three bytes of a surrogate through.
def utf8DecodeChar (pass : Bool) : Bytes → Option (CodePoint × Bytes)
  | [] => none
  | b :: bs =>
      if b.toNat < 0x80 then some (chr b.toNat, bs)
      else if b.toNat < 0xC2 then none
      else if b.toNat < 0xE0 then
        match bs with
        | b₁ :: rest =>
            if IsContinuation b₁ then
              some (chr ((b.toNat - 0xC0) * 64 + (b₁.toNat - 0x80)), rest)
            else none
        | _ => none
      else if b.toNat < 0xF0 then
        match bs with
        | b₁ :: b₂ :: rest =>
            let n := (b.toNat - 0xE0) * 4096 + (b₁.toNat - 0x80) * 64 + (b₂.toNat - 0x80)
            if IsContinuation b₁ ∧ IsContinuation b₂ ∧ 0x800 ≤ n ∧
                (pass = true ∨ n < 0xD800 ∨ 0xE000 ≤ n) then
              some (chr n, rest)
            else none
        | _ => none
      else if b.toNat < 0xF5 then
        match bs with
        | b₁ :: b₂ :: b₃ :: rest =>
            let n := (b.toNat - 0xF0) * 262144 + (b₁.toNat - 0x80) * 4096 +
              (b₂.toNat - 0x80) * 64 + (b₃.toNat - 0x80)
            if IsContinuation b₁ ∧ IsContinuation b₂ ∧ IsContinuation b₃ ∧
                0x10000 ≤ n ∧ n < 0x110000 then
              some (chr n, rest)
            else none
        | _ => none
      else none

-- A decoder that reads one character at a time. The number of bytes bounds the
-- number of characters.
def decodeWith (decodeChar : Bytes → Option (CodePoint × Bytes)) : Nat → Bytes → Option PyStr
  | _, [] => some []
  | 0, _ :: _ => none
  | fuel + 1, bs =>
      match decodeChar bs with
      | some (c, rest) => (decodeWith decodeChar fuel rest).map (c :: ·)
      | none => none

def utf8Decode (pass : Bool) (bs : Bytes) : Option PyStr :=
  decodeWith (utf8DecodeChar pass) bs.length bs

theorem utf8DecodeChar_append (pass : Bool) (bs more : Bytes) (c : CodePoint) (rest : Bytes)
    (h : utf8DecodeChar pass bs = some (c, rest)) :
    utf8DecodeChar pass (bs ++ more) = some (c, rest ++ more) ∧ rest.length < bs.length := by
  rcases bs with _ | ⟨b, bs⟩
  · simp [utf8DecodeChar] at h
  · simp only [utf8DecodeChar, List.cons_append] at h ⊢
    split_ifs at h ⊢ with h₁ h₂ h₃ h₄ h₅
    · obtain ⟨rfl, rfl⟩ := by simpa using h
      simp
    · rcases bs with _ | ⟨b₁, bs⟩ <;> grind
    · rcases bs with _ | ⟨b₁, _ | ⟨b₂, bs⟩⟩ <;> grind
    · rcases bs with _ | ⟨b₁, _ | ⟨b₂, _ | ⟨b₃, bs⟩⟩⟩ <;> grind

theorem toNat_byte (n : Nat) (h : n < 256) : (UInt8.ofNat n).toNat = n := by
  rw [UInt8.toNat_ofNat', Nat.mod_eq_of_lt h]

theorem ofNat_val (c : CodePoint) (n : Nat) (h : n = c.val) : chr n = c :=
  Fin.ext (by simp [h])

theorem utf8DecodeChar_encode (pass : Bool) (c : CodePoint) (bs more : Bytes)
    (h : utf8EncodeChar c = some bs) : utf8DecodeChar pass (bs ++ more) = some (c, more) := by
  have hc := c.isLt
  unfold utf8EncodeChar at h
  split_ifs at h with hs h₁ h₂ h₃ <;> obtain rfl := Option.some.inj h
  all_goals
    simp only [CodePoint.isSurrogate, Bool.and_eq_true, decide_eq_true_eq] at hs
    simp (disch := omega) only [List.cons_append, List.nil_append, utf8DecodeChar, IsContinuation,
      toNat_byte, if_pos, if_neg, Option.some.injEq, Prod.mk.injEq, and_true]
    exact ofNat_val c _ (by omega)

theorem utf8EncodeChar_isSome (c : CodePoint) :
    (utf8EncodeChar c).isSome = !c.isSurrogate := by
  unfold utf8EncodeChar
  split_ifs <;> simp_all

theorem utf8Encode_isSome (s : PyStr) :
    (utf8Encode s).isSome = true ↔ ∀ c ∈ s, c.isSurrogate = false := by
  induction s with
  | nil => simp [utf8Encode]
  | cons c s ih =>
      have hc := utf8EncodeChar_isSome c
      simp only [List.forall_mem_cons, ← ih, utf8Encode]
      cases hh : utf8EncodeChar c <;> cases ht : utf8Encode s <;> simp_all

theorem isSurrogate_of_ascii (c : CodePoint) (h : c.val < 0x80) : c.isSurrogate = false := by
  simp only [CodePoint.isSurrogate, Bool.and_eq_false_iff, decide_eq_false_iff_not]
  omega

theorem ascii_encodable (s : PyStr) (h : isAscii s = true) : ∀ c ∈ s, c.isSurrogate = false := by
  simp only [isAscii, List.all_eq_true, CodePoint.isAscii, decide_eq_true_eq] at h
  exact fun c hc => isSurrogate_of_ascii c (h c hc)

theorem utf8Encode_append (s t : PyStr) (bs cs : Bytes)
    (hs : utf8Encode s = some bs) (ht : utf8Encode t = some cs) :
    utf8Encode (s ++ t) = some (bs ++ cs) := by
  induction s generalizing bs with
  | nil =>
      obtain rfl := by simpa [utf8Encode] using hs
      exact ht
  | cons c s ih =>
      simp only [utf8Encode] at hs
      split at hs
      · rename_i head tail hhead htail
        obtain rfl := by simpa using hs
        simp only [List.cons_append, utf8Encode, hhead, ih tail htail, List.append_assoc]
      · cases hs

-- The bound is not a limit: more of it changes nothing.
theorem decodeWith_fuel (decodeChar : Bytes → Option (CodePoint × Bytes))
    (hdec : ∀ bs c rest, decodeChar bs = some (c, rest) → rest.length < bs.length)
    (fuel more : Nat) (bs : Bytes) (hfuel : bs.length ≤ fuel) :
    decodeWith decodeChar (fuel + more) bs = decodeWith decodeChar fuel bs := by
  induction fuel generalizing bs with
  | zero =>
      obtain rfl := List.length_eq_zero_iff.mp (Nat.le_zero.mp hfuel)
      simp [decodeWith]
  | succ fuel ih =>
      cases bs with
      | nil => simp [decodeWith]
      | cons b bs =>
          rw [Nat.succ_add]
          simp only [decodeWith]
          cases hd : decodeChar (b :: bs) with
          | none => rfl
          | some pair =>
              have hlen := hdec _ _ _ hd
              simp only [List.length_cons] at hlen hfuel
              simp only [ih pair.2 (by omega)]

theorem utf8Decode_cons (pass : Bool) (bs : Bytes) (c : CodePoint) (rest : Bytes)
    (h : utf8DecodeChar pass bs = some (c, rest)) :
    utf8Decode pass bs = (utf8Decode pass rest).map (c :: ·) := by
  have hlen := (utf8DecodeChar_append pass bs [] c rest h).2
  cases bs with
  | nil => simp [utf8DecodeChar] at h
  | cons b bs =>
      simp only [utf8Decode, List.length_cons, decodeWith, h]
      simp only [List.length_cons] at hlen
      obtain ⟨more, hmore⟩ := Nat.exists_eq_add_of_le (Nat.le_of_lt_succ hlen)
      rw [hmore, decodeWith_fuel (utf8DecodeChar pass) _ _ _ _ (Nat.le_refl _)]
      exact fun bs c rest h => (utf8DecodeChar_append pass bs [] c rest h).2

theorem utf8Decode_encode (pass : Bool) (s : PyStr) (bs : Bytes) (h : utf8Encode s = some bs) :
    utf8Decode pass bs = some s := by
  induction s generalizing bs with
  | nil =>
      obtain rfl := by simpa [utf8Encode] using h
      rfl
  | cons c s ih =>
      simp only [utf8Encode] at h
      split at h
      · rename_i head tail hhead htail
        obtain rfl := by simpa using h
        rw [utf8Decode_cons pass _ c tail (utf8DecodeChar_encode pass c head tail hhead),
          ih tail htail]
        rfl
      · cases h

theorem utf8Encode_injective (s t : PyStr) (bs : Bytes)
    (hs : utf8Encode s = some bs) (ht : utf8Encode t = some bs) : s = t := by
  have h := utf8Decode_encode false s bs hs
  rw [utf8Decode_encode false t bs ht] at h
  exact (Option.some.inj h).symm

theorem utf8Decode_append (pass : Bool) (bs more : Bytes) (s : PyStr)
    (h : utf8Decode pass bs = some s) :
    utf8Decode pass (bs ++ more) = (utf8Decode pass more).map (s ++ ·) := by
  induction hn : bs.length using Nat.strong_induction_on generalizing bs s with
  | _ n ih =>
      cases bs with
      | nil =>
          obtain rfl := by simpa [utf8Decode, decodeWith] using h
          simp
      | cons b bs =>
          cases hd : utf8DecodeChar pass (b :: bs) with
          | none => simp [utf8Decode, decodeWith, hd] at h
          | some pair =>
              obtain ⟨c, rest⟩ := pair
              obtain ⟨hmore, hlen⟩ := utf8DecodeChar_append pass (b :: bs) more c rest hd
              rw [utf8Decode_cons pass _ c rest hd] at h
              obtain ⟨t, ht, rfl⟩ := Option.map_eq_some_iff.mp h
              rw [utf8Decode_cons pass _ c _ hmore, ih rest.length (by omega) rest t ht rfl]
              simp [Function.comp_def]

theorem utf8DecodeChar_torn (pass : Bool) (c : CodePoint) (head : Bytes) (n : Nat)
    (h : utf8EncodeChar c = some head) (hn : n < head.length) : utf8DecodeChar pass (head.take n) = none := by
  cases hdecode : utf8DecodeChar pass (head.take n) with
  | none => rfl
  | some pair =>
      obtain ⟨hwhole, -⟩ := utf8DecodeChar_append pass (head.take n) (head.drop n) pair.1 pair.2 hdecode
      have hchar := utf8DecodeChar_encode pass c head [] h
      rw [List.append_nil] at hchar
      rw [List.take_append_drop, hchar] at hwhole
      have hrest := (List.append_eq_nil_iff.mp (Prod.mk.inj (Option.some.inj hwhole)).2.symm).2
      have hlength := congrArg List.length hrest
      rw [List.length_drop, List.length_nil] at hlength
      omega

-- The first bytes of a text are those of a beginning of it, or they end within a character.
theorem utf8Encode_take (pass : Bool) (s : PyStr) (bs : Bytes) (h : utf8Encode s = some bs) (n : Nat) :
    (∃ begun rest, s = begun ++ rest ∧ utf8Encode begun = some (bs.take n)) ∨ utf8Decode pass (bs.take n) = none := by
  induction s generalizing bs n with
  | nil =>
      obtain rfl := Option.some.inj h
      exact .inl ⟨[], [], rfl, by rw [List.take_nil]; rfl⟩
  | cons c s ih =>
      simp only [utf8Encode] at h
      split at h
      · rename_i head tail hhead htail
        obtain rfl := Option.some.inj h
        by_cases hn : head.length ≤ n
        · rw [List.take_append, List.take_of_length_le hn]
          rcases ih tail htail (n - head.length) with ⟨begun, rest, rfl, hbegun⟩ | htorn
          · refine .inl ⟨c :: begun, rest, rfl, ?_⟩
            simp only [utf8Encode, hhead, hbegun]
          · right
            rw [utf8Decode_cons pass _ c _ (utf8DecodeChar_encode pass c head _ hhead), htorn]
            rfl
        · have htake : (head ++ tail).take n = head.take n := List.take_append_of_le_length (by omega)
          rw [htake]
          have htorn := utf8DecodeChar_torn pass c head n hhead (by omega)
          cases hbytes : head.take n with
          | nil => exact .inl ⟨[], c :: s, rfl, rfl⟩
          | cons b bs =>
              right
              rw [hbytes] at htorn
              simp only [utf8Decode, List.length_cons, decodeWith, htorn]
      · cases h

end V91Core.Python
