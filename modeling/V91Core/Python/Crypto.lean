import V91Core.Json.RoundTrip
import V91Core.Python.Exc

namespace V91Core.Python

section Hex

-- `bytes.hex()`.
def bytesHex (bs : Bytes) : PyStr := bs.flatMap hexByte

-- The whitespace that `bytes.fromhex` skips between two bytes.
def isHexSpace (c : CodePoint) : Bool := (0x09 ≤ c.val && c.val ≤ 0x0D) || c.val = 0x20

-- `bytes.fromhex(text)`, where `none` is a `ValueError`.
def fromHex : PyStr → Option Bytes
  | [] => some []
  | [c] => if isHexSpace c then some [] else none
  | c :: d :: rest =>
      if isHexSpace c then fromHex (d :: rest)
      else
        match Json.hexValue c, Json.hexValue d with
        | some high, some low => (fromHex rest).map (UInt8.ofNat (16 * high + low) :: ·)
        | _, _ => none

theorem isHexSpace_hexChar (n : Nat) (h : n < 16) : isHexSpace (hexChar n) = false := by
  have hall : ∀ n : Fin 16, isHexSpace (hexChar n.val) = false := by decide
  exact hall ⟨n, h⟩

theorem fromHex_bytesHex (bs : Bytes) : fromHex (bytesHex bs) = some bs := by
  induction bs with
  | nil => rfl
  | cons b bs ih =>
      have hb := b.toNat_lt
      have hhigh : b.toNat / 16 < 16 := by omega
      have hlow : b.toNat % 16 < 16 := by omega
      have hbyte : UInt8.ofNat (16 * (b.toNat / 16) + b.toNat % 16) = b := by
        rw [show 16 * (b.toNat / 16) + b.toNat % 16 = b.toNat by omega, UInt8.ofNat_toNat]
      rw [bytesHex, List.flatMap_cons, hexByte, List.cons_append, List.cons_append, List.nil_append, fromHex,
        isHexSpace_hexChar _ hhigh, Json.hexValue_hexChar _ hhigh, Json.hexValue_hexChar _ hlow]
      simp only [Bool.false_eq_true, if_false, hbyte]
      rw [← bytesHex, ih, Option.map_some]

theorem bytesHex_length (bs : Bytes) : (bytesHex bs).length = 2 * bs.length := flatMap_hexByte_length bs

end Hex

-- The signature scheme of the library: private and public keys are raw 32 bytes.
structure Ed25519 where
  publicKey : Bytes → Bytes
  sign : Bytes → Bytes → Bytes
  verify : Bytes → Bytes → Bytes → Bool
  publicKey_length : ∀ key, (publicKey key).length = 32
  sign_length : ∀ key message, (sign key message).length = 64

-- Among these messages, a signature under this key is good for the signed one only.
def Ed25519.AcceptsExactly (ed : Ed25519) (key : Bytes) (messages : Set Bytes) : Prop :=
  ∀ m ∈ messages, ∀ m' ∈ messages, ed.verify (ed.publicKey key) (ed.sign key m) m' = true ↔ m' = m

-- AES-GCM of the library. Encryption refuses data that is too long, and a tag that
-- does not fit is `none`.
structure AesGcm where
  encrypt (key nonce data associated : Bytes) : Except PyExc Bytes
  decrypt (key nonce ciphertext associated : Bytes) : Option Bytes

def AesGcm.Correct (aes : AesGcm) : Prop :=
  ∀ key nonce data associated ciphertext, aes.encrypt key nonce data associated = .ok ciphertext →
    aes.decrypt key nonce ciphertext associated = some data

end V91Core.Python
