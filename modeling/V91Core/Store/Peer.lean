import V91Core.Effect.Run
import V91Core.Python.Hmac
import V91Core.Store.Receipt
import Mathlib.Data.List.AList

namespace V91Core.Store

open V91Core.Python
open V91Core.Effect

def receiptAlgorithm : PyStr := py "HMAC-SHA256"

def peerEncryption : PyStr := py "NOT_IMPLEMENTED_STDLIB_GAP"

-- `objects` maps the digest of an object to its bytes. The order of its keys is
-- not used.
structure PeerObjectStore where
  storeId : PyStr
  secret : Bytes
  objects : AList fun _ : PyStr => Bytes

section Model

variable (rt : Runtime)

def PeerObjectStore.init (storeId sharedSecret optIn : PyData) : Except PyExc PeerObjectStore := do
  if !optIn.isTrue then
    .error (.peerStoreError
      (py "peer storage is opt-in only; construct with opt_in=True after a conscious decision"))
  let storeId ← ofOption (.peerStoreError (py "store_id must be a non-empty string")) storeId.nonBlank?
  match sharedSecret with
  | .bytes secret =>
      if secret.length < 32 then
        .error (.peerStoreError (py "shared_secret must be at least 32 bytes of high-entropy key material"))
      else .ok ⟨storeId, secret, ∅⟩
  | _ => .error (.peerStoreError (py "shared_secret must be at least 32 bytes of high-entropy key material"))

-- `"|".join(parts)`, which raises `TypeError` for a part that is no string.
def joinParts : List PyData → Except PyExc PyStr
  | [] => .ok []
  | [.str s] => .ok s
  | .str s :: parts => (joinParts parts).map fun rest => s ++ [cp '|'] ++ rest
  | _ => .error .typeError

def canonicalReceiptBytes (record : List (PyData × PyData)) : Except PyExc Bytes := do
  let text ← joinParts [field record "object_digest", field record "owner_id", field record "store_id",
    field record "algorithm", field record "encryption"]
  encodeUtf8 text

namespace PeerObjectStore

variable (s : PeerObjectStore)

def receiptFields (digest ownerId : PyStr) : List (PyStr × Json) :=
  [(py "object_digest", .str digest), (py "owner_id", .str ownerId), (py "store_id", .str s.storeId),
    (py "algorithm", .str receiptAlgorithm), (py "encryption", .str peerEncryption)]

def issue (digest ownerId : PyStr) : Except PyExc (List (PyData × PyData)) := do
  let message ← canonicalReceiptBytes (PyData.ofFields (s.receiptFields digest ownerId))
  .ok (PyData.ofFields (s.receiptFields digest ownerId ++
    [(py "receipt_mac", .str (rt.hmacHex s.secret message))]))

-- The receipt and the store after the call. What is raised after the object was
-- kept leaves it in place.
def store (data ownerId : PyData) : Except PyExc (List (PyData × PyData)) × PeerObjectStore :=
  match data, ownerId.nonBlank? with
  | .bytes data, some ownerId =>
      let digest := rt.sha256Hex data
      let after : PeerObjectStore := { s with objects := s.objects.insert digest data }
      match s.objects.lookup digest with
      | some existing =>
          if existing ≠ data then
            (.error (.peerIntegrityError
              (py "digest collision for " ++ digest ++ py ": refusing to overwrite (ISOLATE_NOT_DESTROY)")), s)
          else (after.issue rt digest ownerId, after)
      | none => (after.issue rt digest ownerId, after)
  | .bytes _, none => (.error (.peerStoreError (py "owner_id must be a non-empty string")), s)
  | _, _ => (.error (.peerStoreError (py "object data must be bytes")), s)

-- `hmac.compare_digest(digest, value)` of a digest in hex and any value: two
-- arguments of different types raise `TypeError`.
def compareHex (digest : PyStr) : PyData → Except PyExc Bool
  | .str text => ofOption .typeError (compareDigest digest text)
  | _ => .error .typeError

def isAvailable (objectDigest : PyData) : Except PyExc Bool := do
  let key ← objectDigest.lookupKey
  match key.bind s.objects.lookup with
  | none => .ok false
  | some data => compareHex (rt.sha256Hex data) objectDigest

def peerKeys : List String :=
  ["object_digest", "owner_id", "store_id", "algorithm", "encryption", "receipt_mac"]

-- The part of `retrieve` that reads the objects.
def readObject (digest : PyData) : Except PyExc Bytes := do
  let key ← digest.lookupKey
  match key.bind s.objects.lookup with
  | none => do
      let text ← digest.toStr rt
      .error (.receiptValidationError (py "object " ++ text ++ py " is not available in this store"))
  | some data => do
      let same ← compareHex (rt.sha256Hex data) digest
      if same then .ok data
      else do
        let text ← digest.toStr rt
        .error (.peerIntegrityError (py "object " ++ text ++
          py " failed content verification; refusing to return it (ISOLATE_NOT_DESTROY)"))

def retrieve (receipt : PyData) : Except PyExc Bytes :=
  match receipt with
  | .dict entries => do
      requireKeys entries .receiptValidationError peerKeys
      if !(field entries "store_id").isStr s.storeId then
        .error (.receiptValidationError (py "receipt was issued by a different store"))
      if !(field entries "algorithm").isStr receiptAlgorithm then
        let algorithm ← (field entries "algorithm").repr rt
        .error (.receiptValidationError (py "unsupported receipt algorithm: " ++ algorithm))
      let message ← canonicalReceiptBytes entries
      let mac ← (field entries "receipt_mac").toStr rt
      let same ← compareHex (rt.hmacHex s.secret message) (.str mac)
      if !same then .error (.receiptValidationError (py "receipt HMAC mismatch (fail-closed)"))
      s.readObject rt (field entries "object_digest")
  | _ => .error (.receiptValidationError (py "receipt must be a dict"))

def objectCount : Nat := s.objects.keys.length

end PeerObjectStore

inductive PeerCall where
  | store (data ownerId : PyData)
  | isAvailable (objectDigest : PyData)
  | retrieve (receipt : PyData)

def PeerObjectStore.step (s : PeerObjectStore) : PeerCall → PeerObjectStore
  | .store data ownerId => (s.store rt data ownerId).2
  | .isAvailable _ | .retrieve _ => s

end Model

end V91Core.Store
