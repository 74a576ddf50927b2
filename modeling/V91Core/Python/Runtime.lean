import V91Core.Python.Number
import V91Core.Python.Utf8

namespace V91Core.Python

abbrev Digest := { bytes : Bytes // bytes.length = 32 }

def zeroDigest : Digest := ⟨List.replicate 32 0, rfl⟩

-- What the program takes from the machine it runs on: the hash function, the
-- Unicode table behind `repr`, and the number of nested containers that the
-- interpreter's recursion limit leaves room for in the function that is called.
structure Runtime where
  sha256 : Bytes → Digest
  printable : CodePoint → Bool
  nesting : Nat

-- The same machine where a call is this many frames further down. Each frame takes
-- as much of the recursion limit as one nested container.
def Runtime.below (rt : Runtime) (frames : Nat) : Runtime := { rt with nesting := rt.nesting - frames }

@[simp] theorem Runtime.below_nesting (rt : Runtime) (frames : Nat) :
    (rt.below frames).nesting = rt.nesting - frames := rfl

@[simp] theorem Runtime.below_sha256 (rt : Runtime) (frames : Nat) : (rt.below frames).sha256 = rt.sha256 := rfl

@[simp] theorem Runtime.below_printable (rt : Runtime) (frames : Nat) :
    (rt.below frames).printable = rt.printable := rfl

def hexByte (b : UInt8) : PyStr := [hexChar (b.toNat / 16), hexChar (b.toNat % 16)]

def hexdigest (d : Digest) : PyStr := d.val.flatMap hexByte

-- `hashlib.sha256(message).hexdigest()`.
def Runtime.sha256Hex (rt : Runtime) (message : Bytes) : PyStr := hexdigest (rt.sha256 message)

-- `hmac.compare_digest` of two strings raises `TypeError` on non-ASCII text.
def compareDigest (a b : PyStr) : Option Bool :=
  if isAscii a && isAscii b then some (a = b) else none

theorem hexChar_injective (m n : Nat) (hm : m < 16) (hn : n < 16) (h : hexChar m = hexChar n) : m = n := by
  have hall : ∀ m n : Fin 16, hexChar m.val = hexChar n.val → m = n := by decide
  exact congrArg Fin.val (hall ⟨m, hm⟩ ⟨n, hn⟩ h)

theorem hexByte_injective (a b : UInt8) (h : hexByte a = hexByte b) : a = b := by
  have ha := a.toNat_lt
  have hb := b.toNat_lt
  obtain ⟨hhigh, hlow⟩ : hexChar (a.toNat / 16) = hexChar (b.toNat / 16) ∧
      hexChar (a.toNat % 16) = hexChar (b.toNat % 16) := by simpa [hexByte] using h
  have h₁ := hexChar_injective _ _ (by omega) (by omega) hhigh
  have h₂ := hexChar_injective _ _ (by omega) (by omega) hlow
  exact UInt8.toNat_inj.mp (by omega)

theorem flatMap_hexByte_injective (s t : Bytes) (h : s.flatMap hexByte = t.flatMap hexByte) : s = t := by
  induction s generalizing t with
  | nil =>
      cases t with
      | nil => rfl
      | cons b t => simp [hexByte] at h
  | cons a s ih =>
      cases t with
      | nil => simp [hexByte] at h
      | cons b t =>
          rw [List.flatMap_cons, List.flatMap_cons] at h
          obtain ⟨hhead, htail⟩ := List.append_inj h rfl
          rw [hexByte_injective a b hhead, ih t htail]

theorem hexdigest_injective (d e : Digest) (h : hexdigest d = hexdigest e) : d = e :=
  Subtype.ext (flatMap_hexByte_injective _ _ h)

theorem flatMap_hexByte_length (s : Bytes) : (s.flatMap hexByte).length = 2 * s.length := by
  induction s with
  | nil => rfl
  | cons b s ih =>
      rw [List.flatMap_cons, List.length_append, ih, List.length_cons]
      simp only [hexByte, List.length_cons, List.length_nil]
      omega

theorem hexdigest_length (d : Digest) : (hexdigest d).length = 64 := by
  rw [hexdigest, flatMap_hexByte_length, d.property]

def isHexChar (c : CodePoint) : Bool := c.isDigit || (0x61 ≤ c.val && c.val ≤ 0x66)

theorem flatMap_hexByte_chars (s : Bytes) : ∀ c ∈ s.flatMap hexByte, isHexChar c = true := by
  have hhex : ∀ n, n < 16 → isHexChar (hexChar n) = true := by decide
  intro c hc
  obtain ⟨b, -, hb⟩ := List.mem_flatMap.mp hc
  have hlt := b.toNat_lt
  simp only [hexByte, List.mem_cons, List.not_mem_nil, or_false] at hb
  rcases hb with rfl | rfl
  · exact hhex _ (by omega)
  · exact hhex _ (by omega)

theorem hexdigest_chars (d : Digest) : ∀ c ∈ hexdigest d, isHexChar c = true := flatMap_hexByte_chars d.val

theorem isAscii_of_isHexChar (c : CodePoint) (h : isHexChar c = true) : c.isAscii = true := by
  simp only [isHexChar, CodePoint.isDigit, CodePoint.isAscii, Bool.or_eq_true, Bool.and_eq_true,
    decide_eq_true_eq] at h ⊢
  omega

theorem isAscii_hexdigest (d : Digest) : isAscii (hexdigest d) = true := by
  rw [isAscii, List.all_eq_true]
  exact fun c hc => isAscii_of_isHexChar c (hexdigest_chars d c hc)

-- No two of the messages have the same digest.
def Runtime.CollisionFree (rt : Runtime) (messages : Set Bytes) : Prop := Set.InjOn rt.sha256 messages

theorem Runtime.CollisionFree.eq {rt : Runtime} {messages : Set Bytes} (h : rt.CollisionFree messages)
    {a b : Bytes} (ha : a ∈ messages) (hb : b ∈ messages) (hab : rt.sha256Hex a = rt.sha256Hex b) :
    a = b :=
  h ha hb (hexdigest_injective _ _ hab)

end V91Core.Python
