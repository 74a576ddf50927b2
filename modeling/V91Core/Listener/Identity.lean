import V91Core.Listener.Verdict

namespace V91Core.Listener

open V91Core.Python V91Core.Effect

section Rereading

theorem utf8EncodeChar_pos (c : CodePoint) (bs : Bytes) (h : utf8EncodeChar c = some bs) (hc : 0 < c.val) :
    ∀ b ∈ bs, 0 < b.toNat := by
  have hlt := c.isLt
  unfold utf8EncodeChar at h
  split_ifs at h <;> obtain rfl := Option.some.inj h
  all_goals
    simp (disch := omega) only [List.forall_mem_cons, toNat_byte]
    simp
    try omega

-- A text without a null has no zero byte.
theorem utf8Encode_pos (text : PyStr) (bs : Bytes) (h : utf8Encode text = some bs) (htext : ∀ c ∈ text, 0 < c.val) :
    ∀ b ∈ bs, 0 < b.toNat := by
  induction text generalizing bs with
  | nil =>
      obtain rfl := Option.some.inj h
      simp
  | cons c text ih =>
      obtain ⟨hc, htext⟩ := List.forall_mem_cons.mp htext
      simp only [utf8Encode] at h
      split at h
      · next head tail hhead htail =>
          obtain rfl := Option.some.inj h
          exact List.forall_mem_append.mpr ⟨utf8EncodeChar_pos c head hhead hc, ih tail htail htext⟩
      · cases h

theorem utf8Encode_head (c : CodePoint) (text : PyStr) (bs : Bytes) (h : utf8Encode (c :: text) = some bs)
    (hc : c.val < 0x80) : ∃ b tail, bs = b :: tail ∧ b.toNat < 0x80 := by
  simp only [utf8Encode] at h
  split at h
  · next head tail hhead _ =>
      obtain rfl := Option.some.inj h
      rw [utf8EncodeChar, if_neg (by simp [isSurrogate_of_ascii c hc]), if_pos hc] at hhead
      obtain rfl := Option.some.inj hhead
      exact ⟨_, tail, rfl, by rw [toNat_byte _ (by omega)]; exact hc⟩
  · cases h

-- Such bytes are not taken for another encoding.
theorem detectEncoding_utf8 (b : UInt8) (tail : Bytes) (hhead : b.toNat < 0x80) (hpos : ∀ c ∈ b :: tail, 0 < c.toNat) :
    detectEncoding (b :: tail) = .utf8 := by
  have hne : ∀ c ∈ b :: tail, c ≠ 0 := by
    rintro c hc rfl
    exact absurd (hpos 0 hc) (by decide)
  have hmark : ∀ (mark : UInt8) (rest : Bytes), 0x80 ≤ mark.toNat → ¬mark :: rest <+: b :: tail := by
    intro mark rest hmark hprefix
    obtain ⟨rfl, -⟩ := List.cons_prefix_cons.mp hprefix
    omega
  have hzero : ∀ rest : Bytes, ¬0 :: rest <+: b :: tail := by
    intro rest hprefix
    obtain ⟨rfl, -⟩ := List.cons_prefix_cons.mp hprefix
    exact hne 0 List.mem_cons_self rfl
  unfold detectEncoding
  rw [if_neg (by simp [hzero, hmark]), if_neg (by simp [hmark]), if_neg (hmark _ _ (by decide))]
  match tail with
  | [] => rfl
  | [b₁] => exact (if_neg (hne b (by simp))).trans (if_neg (hne b₁ (by simp)))
  | [_, _] => rfl
  | b₁ :: _ :: _ :: _ => exact (if_neg (hne b (by simp))).trans (if_neg (hne b₁ (by simp)))

-- The text of a value starts with an ASCII character.
theorem encode_head (st : Json.Style) (limit : Nat) (j : Json) (text : PyStr) (h : Json.encode st limit j = .ok text) :
    ∀ c, text.head? = some c → c.val < 0x80 := by
  refine Json.encode_pieces (fun s => ∀ c, s.head? = some c → c.val < 0x80) ?_ ?_ ?_ st ?_ limit j text h
  · intro s t hs ht c hc
    cases s with
    | nil => exact ht c hc
    | cons d s => exact hs c hc
  · have hall : Json.pieces.all (fun s => s.head?.all fun c => c.val < 0x80) = true := by decide
    intro s hs c hc
    have hhead := List.all_eq_true.mp hall s hs
    rw [hc] at hhead
    exact of_decide_eq_true hhead
  · intro s n hs c hc
    obtain ⟨number, rfl, -, hchars⟩ := scanNumber_chars s [] n hs
    rw [List.append_nil] at hc
    have hchar := hchars c (List.mem_of_mem_head? hc)
    simp only [isNumberChar, CodePoint.isDigit, Bool.or_eq_true, Bool.and_eq_true, decide_eq_true_eq] at hchar
    rcases hchar with (((((hdigit | rfl) | rfl) | rfl) | rfl) | rfl)
    · omega
    all_goals decide
  · intro s c hc
    obtain rfl := Option.some.inj hc
    decide

-- What is written in the canonical form is read back, with its keys sorted.
theorem loadsBytes_canonical (rt : Runtime) (event : Json) (hevent : Json.Wf event) (canonical : Bytes)
    (h : canonicalBytes rt event = .ok canonical) : loadsBytes rt canonical = .ok (Json.norm event) := by
  obtain ⟨text, htext, hencode⟩ := (bind_eq_ok _ _ _).mp h
  rw [dumps_eq_ok] at htext
  rw [encodeUtf8_eq_ok] at hencode
  have hloads := Json.loads_encode .canonical rfl rt.nesting event hevent text htext
  have hprintable := Json.encode_printable .canonical rt.nesting event text htext
  cases text with
  | nil =>
      obtain ⟨nested, hnested⟩ := Json.parseValue_eq rt.nesting
      simp [Json.loads, Json.skipWs, hnested, Json.parseStep] at hloads
  | cons c rest =>
      have hascii : c.val < 0x80 := encode_head .canonical rt.nesting event _ htext c rfl
      have hpos := utf8Encode_pos _ canonical hencode fun d hd => Nat.lt_of_lt_of_le (by decide) (hprintable d hd)
      obtain ⟨b, tail, rfl, hb⟩ := utf8Encode_head c rest canonical hencode hascii
      have hdecode : decodeDetected (b :: tail) = some (c :: rest) := by
        rw [decodeDetected, detectEncoding_utf8 b tail hb hpos]
        exact utf8Decode_encode true _ _ hencode
      have hmark : (c :: rest).head? ≠ some (chr 0xFEFF) := by
        intro hhead
        obtain rfl := Option.some.inj hhead
        exact absurd hascii (by decide)
      rw [loadsBytes, hdecode]
      show (if _ then _ else _) = _
      rw [if_neg hmark, loadsText_eq_ok]
      exact hloads

end Rereading

variable {cfg : Config}

-- The bytes that are hashed for the identifier.
def hashedBytes (cfg : Config) (content : Bytes) : Except PyExc Bytes :=
  match loadsBytes cfg.rt content with
  | .error (.jsonDecode _ _) => .ok content
  | .error e => .error e
  | .ok event => canonicalBytes cfg.rt event

theorem eventIdOf_eq (content : Bytes) : eventIdOf cfg content = (hashedBytes cfg content).map cfg.rt.sha256Hex := by
  unfold eventIdOf hashedBytes
  cases loadsBytes cfg.rt content with
  | ok event => rfl
  | error e => cases e <;> rfl

-- The same event up to white space, escapes and the order of the keys, or the same
-- bytes if they are malformed.
def SameEvent (cfg : Config) (content content' : Bytes) : Prop :=
  match loadsBytes cfg.rt content, loadsBytes cfg.rt content' with
  | .ok event, .ok event' => Json.norm event = Json.norm event'
  | .error _, .error _ => content = content'
  | _, _ => False

theorem hashedBytes_cases (content bytes : Bytes) (h : hashedBytes cfg content = .ok bytes) :
    (∃ e, loadsBytes cfg.rt content = .error e ∧ bytes = content) ∨
      ∃ event, loadsBytes cfg.rt content = .ok event ∧ canonicalBytes cfg.rt event = .ok bytes := by
  unfold hashedBytes at h
  cases hload : loadsBytes cfg.rt content with
  | ok event =>
      rw [hload] at h
      exact .inr ⟨event, rfl, h⟩
  | error e =>
      rw [hload] at h
      cases e with
      | jsonDecode msg pos => exact .inl ⟨_, rfl, (Except.ok.inj h).symm⟩
      | _ => cases h

theorem canonicalBytes_congr (rt : Runtime) (event event' : Json) (h : Json.norm event = Json.norm event') :
    canonicalBytes rt event = canonicalBytes rt event' := by
  rw [canonicalBytes, canonicalBytes, dumps, dumps, Json.encode_congr .canonical rfl rt.nesting event event' h]

theorem hashedBytes_eq_iff (content content' bytes bytes' : Bytes) (h : hashedBytes cfg content = .ok bytes)
    (h' : hashedBytes cfg content' = .ok bytes') : bytes = bytes' ↔ SameEvent cfg content content' := by
  have hwf : ∀ content event, loadsBytes cfg.rt content = .ok event → Json.Wf event :=
    fun content event hload => (loadsBytes_sound cfg.rt content event hload).1
  unfold SameEvent
  rcases hashedBytes_cases content bytes h with ⟨e, hload, rfl⟩ | ⟨event, hload, hcanonical⟩
  · rcases hashedBytes_cases content' bytes' h' with ⟨e', hload', rfl⟩ | ⟨event', hload', hcanonical'⟩
    · rw [hload, hload']
    · -- malformed bytes are not the canonical form of an event
      have hreread := loadsBytes_canonical cfg.rt event' (hwf content' event' hload') bytes' hcanonical'
      rw [hload, hload']
      refine iff_of_false ?_ id
      rintro rfl
      rw [hload] at hreread
      cases hreread
  · have hreread := loadsBytes_canonical cfg.rt event (hwf content event hload) bytes hcanonical
    rcases hashedBytes_cases content' bytes' h' with ⟨e', hload', rfl⟩ | ⟨event', hload', hcanonical'⟩
    · rw [hload, hload']
      refine iff_of_false ?_ id
      rintro rfl
      rw [hload'] at hreread
      cases hreread
    · have hreread' := loadsBytes_canonical cfg.rt event' (hwf content' event' hload') bytes' hcanonical'
      rw [hload, hload']
      constructor
      · rintro rfl
        exact Except.ok.inj (hreread.symm.trans hreread')
      · intro hnorm
        rw [canonicalBytes_congr cfg.rt event event' hnorm] at hcanonical
        exact Except.ok.inj (hcanonical.symm.trans hcanonical')

-- Two contents have one identifier exactly if they are the same event.
theorem eventId_eq_iff (content content' bytes bytes' : Bytes) (h : hashedBytes cfg content = .ok bytes)
    (h' : hashedBytes cfg content' = .ok bytes') (hfree : cfg.rt.CollisionFree {bytes, bytes'}) :
    eventIdOf cfg content = eventIdOf cfg content' ↔ SameEvent cfg content content' := by
  rw [← hashedBytes_eq_iff content content' bytes bytes' h h', eventIdOf_eq, eventIdOf_eq, h, h']
  constructor
  · intro heq
    exact hfree (by simp) (by simp) (hexdigest_injective _ _ (Except.ok.inj heq))
  · rintro rfl
    rfl

-- A runtime whose hash function has a single value.
def sampleConfig : Config where
  rt := ⟨fun _ => zeroDigest, fun _ => true, 1000⟩
  tables := asciiCase
  hitlThreshold := 0.75

def spacedContent : Bytes := "\x7b\"b\": 1, \"a\": 2\x7d".toUTF8.toList

def sortedContent : Bytes := "\x7b\"a\":2,\"b\":1\x7d".toUTF8.toList

def changedContent : Bytes := "\x7b\"a\":2,\"b\":3\x7d".toUTF8.toList

-- The values of SHA-256 for the two canonical forms.
def sortedDigest : Digest :=
  ⟨[211, 98, 106, 195, 10, 135, 230, 247, 166, 66, 130, 51, 179, 198, 130, 153, 151, 104, 101, 250, 85, 8, 228,
    38, 124, 84, 21, 199, 106, 247, 167, 114], rfl⟩

def changedDigest : Digest :=
  ⟨[32, 111, 123, 85, 67, 230, 242, 239, 57, 191, 51, 73, 136, 253, 112, 151, 183, 37, 202, 238, 209, 101, 136,
    205, 157, 120, 84, 128, 242, 240, 248, 246], rfl⟩

def identityConfig : Config :=
  { sampleConfig with
    rt.sha256 := fun message => if message = sortedContent then sortedDigest else changedDigest }

theorem eventId_eq_iff_reordered :
    eventIdOf identityConfig spacedContent = eventIdOf identityConfig sortedContent ∧
      eventIdOf identityConfig spacedContent ≠ eventIdOf identityConfig changedContent := by
  have hspaced : hashedBytes identityConfig spacedContent = .ok sortedContent := by decide +kernel
  have hsorted : hashedBytes identityConfig sortedContent = .ok sortedContent := by decide +kernel
  have hchanged : hashedBytes identityConfig changedContent = .ok changedContent := by decide +kernel
  constructor
  · refine (eventId_eq_iff _ _ _ _ hspaced hsorted (by simp [Runtime.CollisionFree])).mpr ?_
    exact (hashedBytes_eq_iff _ _ _ _ hspaced hsorted).mp rfl
  · have hfree : identityConfig.rt.CollisionFree {sortedContent, changedContent} := by
      refine Set.injOn_pair.mpr fun heq => absurd heq ?_
      decide +kernel
    intro heq
    have hsame := (eventId_eq_iff _ _ _ _ hspaced hchanged hfree).mp heq
    exact absurd ((hashedBytes_eq_iff _ _ _ _ hspaced hchanged).mpr hsame) (by decide +kernel)

end V91Core.Listener
