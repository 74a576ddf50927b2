import V91Core.Effect.Run
import V91Core.Store.CryptoReceipts
import V91Core.Store.Receipt
import Mathlib.Data.List.AList

namespace V91Core.Store

open V91Core.Python
open V91Core.Effect

def encryptionStatus : PyStr := py "AES-256-GCM"

-- `entries` maps the digest of a plaintext to the nonce and the ciphertext. The
-- order of its keys is not used.
structure EncryptedObjectStore where
  storeId : PyStr
  masterKey : Bytes
  signingKey : PyData
  entries : AList fun _ : PyStr => Bytes × Bytes

section Model

variable (rt : Runtime) (ed : Ed25519) (aes : AesGcm)

def EncryptedObjectStore.init (storeId masterKey optIn signingKey : PyData) :
    Except PyExc EncryptedObjectStore := do
  if !optIn.isTrue then
    .error (.encryptedStoreError
      (py "encrypted peer storage is opt-in only; construct with opt_in=True after a conscious decision"))
  let storeId ← ofOption (.encryptedStoreError (py "store_id must be a non-empty string")) storeId.nonBlank?
  match masterKey with
  | .bytes key =>
      if key.length = 32 then .ok ⟨storeId, key, signingKey, ∅⟩
      else .error (.encryptedStoreError (py "master_key must be exactly 32 bytes (AES-256)"))
  | _ => .error (.encryptedStoreError (py "master_key must be exactly 32 bytes (AES-256)"))

namespace EncryptedObjectStore

variable (s : EncryptedObjectStore)

-- The entry of this digest. Where there is none yet, the data is encrypted under
-- this nonce and kept.
def entryFor (digest : PyStr) (data nonce : Bytes) :
    Except PyExc ((Bytes × Bytes) × EncryptedObjectStore) :=
  match s.entries.lookup digest with
  | some entry => .ok (entry, s)
  | none => do
      let associated ← encodeUtf8 s.storeId
      let ciphertext ← aes.encrypt s.masterKey nonce data associated
      .ok ((nonce, ciphertext), { s with entries := s.entries.insert digest (nonce, ciphertext) })

def receiptFields (digest ownerId : PyStr) (entry : Bytes × Bytes) : List (PyStr × Json) :=
  [(py "object_digest", .str digest), (py "owner_id", .str ownerId), (py "store_id", .str s.storeId),
    (py "algorithm", .str (py "ED25519")), (py "encryption", .str encryptionStatus),
    (py "nonce", .str (bytesHex entry.1)), (py "ciphertext_digest", .str (rt.sha256Hex entry.2))]

def issue (digest ownerId : PyStr) (entry : Bytes × Bytes) : Except PyExc (List (PyData × PyData)) :=
  let receipt := PyData.ofFields (s.receiptFields rt digest ownerId entry)
  match s.signingKey with
  | .none => .ok receipt
  | signingKey => do
      let signature ← signRecord rt ed (.dict receipt) signingKey
      .ok (PyData.insert signatureField (.str signature) receipt)

-- The receipt and the store after the call. What is raised after the entry was
-- made leaves the entry in place.
def store (data ownerId : PyData) (nonce : Bytes) :
    Except PyExc (List (PyData × PyData)) × EncryptedObjectStore :=
  match data, ownerId.nonBlank? with
  | .bytes data, some ownerId =>
      let digest := rt.sha256Hex data
      match s.entryFor aes digest data nonce with
      | .ok (entry, after) => (after.issue rt ed digest ownerId entry, after)
      | .error e => (.error e, s)
  | .bytes _, none => (.error (.encryptedStoreError (py "owner_id must be a non-empty string")), s)
  | _, _ => (.error (.encryptedStoreError (py "object data must be bytes")), s)

def isAvailable (objectDigest : PyData) : Except PyExc Bool := do
  let key ← objectDigest.lookupKey
  match key.bind s.entries.lookup with
  | none => .ok false
  | some (nonce, ciphertext) => do
      let associated ← encodeUtf8 s.storeId
      match aes.decrypt s.masterKey nonce ciphertext associated with
      | none => .ok false
      | some plaintext => .ok (objectDigest.isStr (rt.sha256Hex plaintext))

end EncryptedObjectStore

def requiredKeys : List String :=
  ["object_digest", "owner_id", "store_id", "encryption", "nonce", "ciphertext_digest"]

def publicKeyFor (entries : List (PyData × PyData)) : Except PyExc Bytes :=
  let hexKey : Except PyExc Bytes :=
    match PyData.get? (py "verification_key_hex") entries with
    | some (.str hex) =>
        if hex.length = 64 then
          ofOption (.valueError (py "non-hexadecimal number found in fromhex() arg")) (fromHex hex)
        else .error (.encryptedIntegrityError (py "no Ed25519 verification key supplied with the receipt"))
    | _ => .error (.encryptedIntegrityError (py "no Ed25519 verification key supplied with the receipt"))
  match PyData.get? (py "_verification_key") entries with
  | some (.bytes key) => if key.length = 32 then .ok key else hexKey
  | _ => hexKey

-- A receipt without a signature passes.
def checkReceiptSignature (entries : List (PyData × PyData)) : Except PyExc Unit :=
  match PyData.get? signatureField entries with
  | none => .ok ()
  | some _ => do
      let publicKey ← publicKeyFor entries
      if verifyRecordSignature rt ed (.dict entries) (.bytes publicKey) then .ok ()
      else .error (.encryptedIntegrityError (py "receipt signature verification failed (fail-closed)"))

namespace EncryptedObjectStore

variable (s : EncryptedObjectStore)

-- An `IntegrityError` whose text names the digest.
def refuse (before : String) (digest : PyData) (after : String) : Except PyExc α := do
  let digest ← digest.toStr rt
  .error (.encryptedIntegrityError (py before ++ digest ++ py after))

def openEntry (digest expected : PyData) : Except PyExc Bytes := do
  let key ← digest.lookupKey
  match key.bind s.entries.lookup with
  | none => refuse rt "object " digest " is not available in this store"
  | some (nonce, ciphertext) =>
      if !expected.isStr (rt.sha256Hex ciphertext) then
        refuse rt "ciphertext digest mismatch for " digest "; refusing to decrypt (ISOLATE_NOT_DESTROY)"
      else do
        let associated ← encodeUtf8 s.storeId
        match aes.decrypt s.masterKey nonce ciphertext associated with
        | none => refuse rt "decryption failed for " digest "; refusing to return anything (ISOLATE_NOT_DESTROY)"
        | some plaintext =>
            if digest.isStr (rt.sha256Hex plaintext) then .ok plaintext
            else refuse rt "plaintext digest mismatch for " digest "; refusing to return it (ISOLATE_NOT_DESTROY)"

def retrieve (receipt : PyData) : Except PyExc Bytes :=
  match receipt with
  | .dict entries => do
      requireKeys entries .encryptedIntegrityError requiredKeys
      if !(field entries "store_id").isStr s.storeId then
        .error (.encryptedIntegrityError (py "receipt was issued by a different store"))
      if !(field entries "encryption").isStr encryptionStatus then
        let status ← (field entries "encryption").repr rt
        .error (.encryptedIntegrityError (py "unsupported encryption status: " ++ status))
      checkReceiptSignature rt ed entries
      s.openEntry rt aes (field entries "object_digest") (field entries "ciphertext_digest")
  | _ => .error (.encryptedIntegrityError (py "receipt must be a dict"))

def objectCount : Nat := s.entries.keys.length

end EncryptedObjectStore

-- A call with its arguments. The nonce is the one that `os.urandom` would return.
inductive EncryptedCall where
  | store (data ownerId : PyData) (nonce : Bytes)
  | isAvailable (objectDigest : PyData)
  | retrieve (receipt : PyData)

def EncryptedObjectStore.step (s : EncryptedObjectStore) : EncryptedCall → EncryptedObjectStore
  | .store data ownerId nonce => (s.store rt ed aes data ownerId nonce).2
  | .isAvailable _ | .retrieve _ => s

end Model

end V91Core.Store
