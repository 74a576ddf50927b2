import V91Core.Content.Map
import V91Core.Store.Peer

namespace V91Core.Store

open V91Core.Python
open V91Core.Effect
open V91Core.Content

variable (rt : Runtime)

section Receipts

-- A receipt of this store for `data`: its five fields and the MAC over them.
def IsReceipt (s : PeerObjectStore) (receipt : List (PyData × PyData)) (data : Bytes) : Prop :=
  ∃ ownerId message,
    canonicalReceiptBytes (PyData.ofFields (s.receiptFields (rt.sha256Hex data) ownerId)) = .ok message ∧
    receipt = PyData.ofFields (s.receiptFields (rt.sha256Hex data) ownerId ++
      [(py "receipt_mac", .str (rt.hmacHex s.secret message))])

theorem issue_eq_ok (s : PeerObjectStore) (data : Bytes) (ownerId : PyStr) (receipt : List (PyData × PyData))
    (h : s.issue rt (rt.sha256Hex data) ownerId = .ok receipt) : IsReceipt rt s receipt data := by
  obtain ⟨message, hmessage, h⟩ := (bind_eq_ok _ _ _).mp h
  exact ⟨ownerId, message, hmessage, (Except.ok.inj h).symm⟩

theorem compareHex_self (d : Digest) : PeerObjectStore.compareHex (hexdigest d) (.str (hexdigest d)) = .ok true := by
  simp [PeerObjectStore.compareHex, compareDigest, isAscii_hexdigest, ofOption]

theorem compareHex_eq_true (d : Digest) (value : PyData) :
    PeerObjectStore.compareHex (hexdigest d) value = .ok true ↔ value = .str (hexdigest d) := by
  constructor
  · intro h
    cases value with
    | str text =>
        rw [PeerObjectStore.compareHex, compareDigest] at h
        split at h
        · have hsame : hexdigest d = text := by simpa [ofOption] using h
          rw [hsame]
        · cases h
    | _ => cases h
  · rintro rfl
    exact compareHex_self d

-- What `retrieve` checks before it returns an object.
structure Accepted (s : PeerObjectStore) (entries : List (PyData × PyData)) (data : Bytes) : Prop where
  keys : ∀ key ∈ PeerObjectStore.peerKeys, (PyData.get? (py key) entries).isSome = true
  storeId : field entries "store_id" = .str s.storeId
  algorithm : field entries "algorithm" = .str receiptAlgorithm
  mac : ∃ message, canonicalReceiptBytes entries = .ok message ∧
    (field entries "receipt_mac").toStr rt = .ok (rt.hmacHex s.secret message)
  digest : field entries "object_digest" = .str (rt.sha256Hex data)
  held : s.objects.lookup (rt.sha256Hex data) = some data

theorem lookupKey_eq_ok (value : PyData) (key : PyStr) :
    value.lookupKey = .ok (some key) ↔ value = .str key := by
  cases value with
  | str s => simp [PyData.lookupKey, PyData.hashable]
  | _ =>
      unfold PyData.lookupKey
      split <;> simp

theorem readObject_eq_ok (s : PeerObjectStore) (digest : PyData) (data : Bytes) :
    s.readObject rt digest = .ok data ↔
      digest = .str (rt.sha256Hex data) ∧ s.objects.lookup (rt.sha256Hex data) = some data := by
  have hrefuse : ∀ (e : PyStr → PyExc), (digest.toStr rt >>= fun text => (.error (e text) : Except PyExc Bytes)) ≠
      .ok data := by
    intro e
    cases digest.toStr rt <;> simp [bind, Except.bind]
  constructor
  · intro h
    obtain ⟨key, hkey, h⟩ := (bind_eq_ok _ _ _).mp h
    cases hlookup : key.bind s.objects.lookup with
    | none => rw [hlookup] at h; exact absurd h (hrefuse _)
    | some found =>
        rw [hlookup] at h
        obtain ⟨same, hsame, h⟩ := (bind_eq_ok _ _ _).mp h
        cases same with
        | false => exact absurd h (hrefuse _)
        | true =>
            obtain rfl := Except.ok.inj h
            have hdigest := (compareHex_eq_true _ digest).mp hsame
            obtain ⟨k, rfl, hk⟩ := Option.bind_eq_some_iff.mp hlookup
            have hkeys := (lookupKey_eq_ok digest k).mp hkey
            rw [hdigest, PyData.str.injEq] at hkeys
            refine ⟨hdigest, ?_⟩
            change s.objects.lookup (hexdigest (rt.sha256 found)) = some found
            rw [hkeys]
            exact hk
  · rintro ⟨rfl, hheld⟩
    have hcontent : PeerObjectStore.compareHex (rt.sha256Hex data) (.str (rt.sha256Hex data)) = .ok true :=
      compareHex_self _
    simp [PeerObjectStore.readObject, PyData.lookupKey, PyData.hashable, hheld, hcontent, bind, Except.bind]

theorem peer_retrieve_eq_ok (s : PeerObjectStore) (entries : List (PyData × PyData)) (data : Bytes) :
    s.retrieve rt (.dict entries) = .ok data ↔ Accepted rt s entries data := by
  have hkeys := requireKeys_eq_ok entries .receiptValidationError PeerObjectStore.peerKeys ()
  constructor
  · intro h
    obtain ⟨_, hrequired, h⟩ := (bind_eq_ok _ _ _).mp h
    by_cases hstore : (field entries "store_id").isStr s.storeId = true
    · by_cases halgorithm : (field entries "algorithm").isStr receiptAlgorithm = true
      · simp only [hstore, halgorithm, Bool.not_true, Bool.false_eq_true, if_false] at h
        obtain ⟨message, hmessage, h⟩ := (bind_eq_ok _ _ _).mp h
        obtain ⟨mac, hmac, h⟩ := (bind_eq_ok _ _ _).mp h
        obtain ⟨same, hsame, h⟩ := (bind_eq_ok _ _ _).mp h
        cases same with
        | false => cases h
        | true =>
            simp only [Bool.not_true, Bool.false_eq_true, if_false] at h
            have htext := (compareHex_eq_true _ _).mp hsame
            rw [PyData.str.injEq] at htext
            obtain ⟨hdigest, hheld⟩ := (readObject_eq_ok rt s _ data).mp h
            exact ⟨hkeys.mp hrequired, (isStr_iff _ _).mp hstore, (isStr_iff _ _).mp halgorithm,
              ⟨message, hmessage, by rw [hmac, htext]; rfl⟩, hdigest, hheld⟩
      · simp [hstore, halgorithm, bind, Except.bind] at h
        split at h <;> cases h
    · simp [hstore, bind, Except.bind] at h
  · intro h
    obtain ⟨message, hmessage, hmac⟩ := h.mac
    have hsame : PeerObjectStore.compareHex (rt.hmacHex s.secret message) (.str (rt.hmacHex s.secret message)) =
        .ok true := compareHex_self _
    have hread := (readObject_eq_ok rt s _ data).mpr ⟨h.digest, h.held⟩
    simp [PeerObjectStore.retrieve, hkeys.mpr h.keys, h.storeId, h.algorithm, hmessage, hmac, hsame, hread,
      PyData.isStr, bind, Except.bind]

-- A receipt is accepted as long as the store has its object.
theorem retrieve_receipt (s : PeerObjectStore) (receipt : List (PyData × PyData)) (data : Bytes)
    (hreceipt : IsReceipt rt s receipt data) (hheld : s.objects.lookup (rt.sha256Hex data) = some data) :
    s.retrieve rt (.dict receipt) = .ok data := by
  obtain ⟨ownerId, message, hmessage, rfl⟩ := hreceipt
  refine (peer_retrieve_eq_ok rt s _ data).mpr ⟨?_, rfl, rfl, ⟨message, hmessage, rfl⟩, rfl, hheld⟩
  intro key hkey
  fin_cases hkey <;> rfl

end Receipts

section Step

-- The object that a call hands over with a valid owner.
def offered : PeerCall → Option Bytes
  | .store (.bytes data) ownerId => ownerId.nonBlank?.map fun _ => data
  | _ => none

-- The receipt that a call returns, with the object it was issued for.
def issued (s : PeerObjectStore) (call : PeerCall) : Option (List (PyData × PyData) × Bytes) :=
  match call with
  | .store (.bytes data) ownerId => (s.store rt (.bytes data) ownerId).1.toOption.map fun receipt => (receipt, data)
  | _ => none

def keep (s : PeerObjectStore) (data : Bytes) : PeerObjectStore :=
  { s with objects := s.objects.insert (rt.sha256Hex data) data }

theorem step_not_offered (s : PeerObjectStore) (call : PeerCall) (h : offered call = none) :
    s.step rt call = s ∧ issued rt s call = none := by
  cases call with
  | isAvailable value => exact ⟨rfl, rfl⟩
  | retrieve receipt => exact ⟨rfl, rfl⟩
  | store data ownerId =>
      cases data with
      | bytes data =>
          have howner : ownerId.nonBlank? = none := by simpa [offered] using h
          simp [PeerObjectStore.step, issued, PeerObjectStore.store, howner, Except.toOption]
      | _ => exact ⟨rfl, rfl⟩

-- With a valid owner and no other object under its digest, the object is kept.
theorem store_kept (s : PeerObjectStore) (data : Bytes) (ownerId : PyData) (owner : PyStr)
    (howner : ownerId.nonBlank? = some owner)
    (hfree : ∀ existing, s.objects.lookup (rt.sha256Hex data) = some existing → existing = data) :
    s.store rt (.bytes data) ownerId = ((keep rt s data).issue rt (rt.sha256Hex data) owner, keep rt s data) := by
  simp only [PeerObjectStore.store, howner]
  cases hlookup : s.objects.lookup (rt.sha256Hex data) with
  | none => rfl
  | some existing =>
      rw [hfree existing hlookup]
      simp [keep]

-- An offered object is kept, even where its receipt cannot be built, unless there
-- is another object under its digest.
theorem step_offered (s : PeerObjectStore) (call : PeerCall) (data : Bytes) (h : offered call = some data)
    (hfree : ∀ existing, s.objects.lookup (rt.sha256Hex data) = some existing → existing = data) :
    s.step rt call = keep rt s data ∧
      ∀ receipt other, issued rt s call = some (receipt, other) → other = data ∧ IsReceipt rt s receipt data := by
  cases call with
  | isAvailable value => cases h
  | retrieve receipt => cases h
  | store value ownerId =>
      cases value with
      | bytes bs =>
          obtain ⟨owner, howner, rfl⟩ := Option.map_eq_some_iff.mp h
          have hcall := store_kept rt s bs ownerId owner howner hfree
          refine ⟨by rw [PeerObjectStore.step, hcall], ?_⟩
          intro receipt other hissued
          simp only [issued, hcall, Option.map_eq_some_iff, Prod.mk.injEq] at hissued
          obtain ⟨receipt', hok, rfl, rfl⟩ := hissued
          cases hissue : (keep rt s bs).issue rt (rt.sha256Hex bs) owner with
          | error e => rw [hissue] at hok; cases hok
          | ok r =>
              rw [hissue] at hok
              obtain rfl := Option.some.inj hok
              exact ⟨rfl, issue_eq_ok rt (keep rt s bs) bs owner r hissue⟩
      | _ => cases h

end Step

section Runs

-- The store after these calls.
def peerAfter (s : PeerObjectStore) (calls : List PeerCall) : PeerObjectStore :=
  runFrom (PeerObjectStore.step rt) s calls

-- The objects that the calls have handed over.
def heldAfter (calls : List PeerCall) : Finset Bytes := (calls.filterMap offered).toFinset

-- The receipts that the calls have returned, each with its object.
def receiptsOf (s : PeerObjectStore) (calls : List PeerCall) : List (List (PyData × PyData) × Bytes) :=
  collect (PeerObjectStore.step rt) (issued rt) s calls

theorem heldAfter_concat (calls : List PeerCall) (call : PeerCall) :
    heldAfter (calls ++ [call]) =
      match offered call with
      | none => heldAfter calls
      | some data => insert data (heldAfter calls) := by
  cases hcall : offered call with
  | none => simp [heldAfter, List.filterMap_append, hcall]
  | some data =>
      ext other
      simp [heldAfter, List.filterMap_append, hcall]

-- The invariant of a run: the objects are the ones handed over, and every receipt
-- is one for an object among them.
theorem run_holds (s₀ : PeerObjectStore) (hempty : s₀.objects = ∅) (calls : List PeerCall)
    (hfree : rt.CollisionFree (heldAfter calls : Set Bytes)) :
    (peerAfter rt s₀ calls).storeId = s₀.storeId ∧ (peerAfter rt s₀ calls).secret = s₀.secret ∧
      Holds rt.sha256Hex (peerAfter rt s₀ calls).objects (heldAfter calls) ∧
      ∀ r ∈ receiptsOf rt s₀ calls, r.2 ∈ heldAfter calls ∧ IsReceipt rt s₀ r.1 r.2 := by
  induction calls using List.reverseRecOn with
  | nil =>
      refine ⟨rfl, rfl, ?_, by simp [receiptsOf, collect]⟩
      change Holds rt.sha256Hex s₀.objects ∅
      rw [hempty]
      exact holds_empty
  | append_singleton calls call ih =>
      have hnext : peerAfter rt s₀ (calls ++ [call]) = (peerAfter rt s₀ calls).step rt call :=
        runFrom_concat _ _ _
      have hreceipts : receiptsOf rt s₀ (calls ++ [call]) =
          receiptsOf rt s₀ calls ++ (issued rt (peerAfter rt s₀ calls) call).toList := collect_concat _ _ _
      rw [hnext, hreceipts, heldAfter_concat]
      rw [heldAfter_concat] at hfree
      cases hcall : offered call with
      | none =>
          simp only [hcall] at hfree ⊢
          obtain ⟨hstep, hissued⟩ := step_not_offered rt (peerAfter rt s₀ calls) call hcall
          rw [hstep, hissued, Option.toList_none, List.append_nil]
          exact ih hfree
      | some data =>
          simp only [hcall] at hfree ⊢
          have hsub : heldAfter calls ⊆ insert data (heldAfter calls) := Finset.subset_insert data (heldAfter calls)
          obtain ⟨hid, hsecret, hholds, hall⟩ := ih (hfree.mono (Finset.coe_subset.mpr hsub))
          have hinj : Set.InjOn rt.sha256Hex (insert data (heldAfter calls) : Finset Bytes) :=
            fun a ha b hb hab => hfree.eq ha hb hab
          obtain ⟨hstep, hissued⟩ := step_offered rt (peerAfter rt s₀ calls) call data hcall fun existing hlookup => by
            obtain ⟨hmem, haddress⟩ := (hholds _ _).mp hlookup
            exact hinj (hsub hmem) (Finset.mem_insert_self data _) haddress
          rw [hstep]
          refine ⟨hid, hsecret, hholds.insert data hinj, ?_⟩
          intro r hr
          rcases List.mem_append.mp hr with hold | hnew
          · exact ⟨hsub (hall r hold).1, (hall r hold).2⟩
          · obtain ⟨hdata, hreceipt⟩ := hissued r.1 r.2 (Option.mem_toList.mp hnew)
            rw [hdata]
            refine ⟨Finset.mem_insert_self data _, ?_⟩
            simpa only [IsReceipt, PeerObjectStore.receiptFields, hid, hsecret] using hreceipt

theorem isAvailable_iff (s : PeerObjectStore) (held : Finset Bytes) (hholds : Holds rt.sha256Hex s.objects held)
    (value : PyData) : s.isAvailable rt value = .ok true ↔ ∃ data ∈ held, value = .str (rt.sha256Hex data) := by
  constructor
  · intro h
    obtain ⟨key, hkey, h⟩ := (bind_eq_ok _ _ _).mp h
    cases hlookup : key.bind s.objects.lookup with
    | none => rw [hlookup] at h; cases h
    | some data =>
        rw [hlookup] at h
        obtain ⟨k, -, hk⟩ := Option.bind_eq_some_iff.mp hlookup
        exact ⟨data, ((hholds k data).mp hk).1, (compareHex_eq_true _ value).mp h⟩
  · rintro ⟨data, hdata, rfl⟩
    have hsame : PeerObjectStore.compareHex (rt.sha256Hex data) (.str (rt.sha256Hex data)) = .ok true :=
      compareHex_self _
    simp [PeerObjectStore.isAvailable, PyData.lookupKey, PyData.hashable, hholds.lookup data hdata, hsame, bind,
      Except.bind]

theorem peer_init (storeId sharedSecret optIn : PyData) (s : PeerObjectStore)
    (h : PeerObjectStore.init storeId sharedSecret optIn = .ok s) : s.objects = ∅ := by
  unfold PeerObjectStore.init at h
  by_cases hopt : optIn.isTrue = true
  · simp only [hopt, Bool.not_true, Bool.false_eq_true, if_false] at h
    obtain ⟨id, -, h⟩ := (bind_eq_ok _ _ _).mp h
    split at h
    · split at h
      · cases h
      · obtain rfl := Except.ok.inj h
        rfl
    · cases h
  · simp [hopt, bind, Except.bind] at h

-- Whatever the calls, the store keeps every object that was handed over to it.
theorem contents_kept (storeId sharedSecret optIn : PyData) (s₀ : PeerObjectStore)
    (hinit : PeerObjectStore.init storeId sharedSecret optIn = .ok s₀) (calls : List PeerCall)
    (hfree : rt.CollisionFree (heldAfter calls : Set Bytes)) :
    (∀ r ∈ receiptsOf rt s₀ calls, (peerAfter rt s₀ calls).retrieve rt (.dict r.1) = .ok r.2) ∧
      (∀ value, (peerAfter rt s₀ calls).isAvailable rt value = .ok true ↔
        ∃ data ∈ heldAfter calls, value = .str (rt.sha256Hex data)) ∧
      (peerAfter rt s₀ calls).objectCount = (heldAfter calls).card ∧
      (∀ receipt, peerAfter rt s₀ (calls ++ [.retrieve receipt]) = peerAfter rt s₀ calls) ∧
      ∀ value, peerAfter rt s₀ (calls ++ [.isAvailable value]) = peerAfter rt s₀ calls := by
  have hempty := peer_init storeId sharedSecret optIn s₀ hinit
  obtain ⟨hid, hsecret, hholds, hall⟩ := run_holds rt s₀ hempty calls hfree
  refine ⟨?_, isAvailable_iff rt _ _ hholds, ?_, ?_, ?_⟩
  · intro r hr
    obtain ⟨hheld, hreceipt⟩ := hall r hr
    refine retrieve_receipt rt _ r.1 r.2 ?_ (hholds.lookup r.2 hheld)
    simpa only [IsReceipt, PeerObjectStore.receiptFields, hid, hsecret] using hreceipt
  · exact hholds.card fun a ha b hb hab => hfree.eq ha hb hab
  · exact fun receipt => runFrom_concat _ _ _
  · exact fun value => runFrom_concat _ _ _

end Runs

section Sample

-- The values of SHA-256 for the receipts of two objects under the secret `b"s" * 32`.
def payloadDigest : Digest :=
  ⟨[35, 159, 89, 237, 85, 231, 55, 199, 113, 71, 207, 85, 173, 12, 27, 3, 11, 109, 126, 231, 72, 167, 66,
    105, 82, 249, 184, 82, 213, 169, 53, 229], rfl⟩

def payloadInner : Digest :=
  ⟨[135, 97, 160, 228, 212, 236, 52, 153, 38, 192, 253, 57, 162, 45, 93, 207, 15, 188, 157, 44, 229, 221,
    165, 133, 64, 131, 116, 219, 85, 217, 159, 150], rfl⟩

def payloadMac : Digest :=
  ⟨[116, 56, 207, 8, 26, 10, 40, 241, 54, 46, 206, 103, 134, 135, 110, 107, 169, 211, 156, 219, 187, 42,
    136, 158, 151, 154, 138, 163, 254, 218, 30, 157], rfl⟩

def otherDigest : Digest :=
  ⟨[217, 41, 138, 16, 209, 176, 115, 88, 55, 220, 75, 216, 93, 172, 100, 27, 15, 60, 239, 39, 164, 126,
    93, 83, 165, 79, 47, 63, 91, 47, 207, 250], rfl⟩

def otherInner : Digest :=
  ⟨[96, 37, 41, 64, 197, 215, 235, 224, 0, 243, 220, 244, 160, 193, 205, 133, 199, 47, 32, 236, 161, 109,
    255, 184, 33, 28, 52, 87, 14, 146, 241, 78], rfl⟩

def otherMac : Digest :=
  ⟨[120, 37, 221, 211, 68, 253, 24, 38, 62, 176, 193, 163, 56, 32, 164, 103, 29, 235, 56, 199, 145, 19,
    165, 169, 224, 211, 90, 213, 247, 245, 58, 51], rfl⟩

def payload : Bytes := (utf8Encode (py "payload")).getD []

def otherObject : Bytes := (utf8Encode (py "other")).getD []

-- An owner with the text of the store's own fields in it.
def barredOwner : PyStr := py "alice|node-alpha|HMAC-SHA256|X"

def macInput (d : Digest) (ownerId : PyStr) : Bytes :=
  (utf8Encode (hexdigest d ++ py "|" ++ ownerId ++ py "|node-alpha|HMAC-SHA256|" ++ peerEncryption)).getD []

def innerInput (message : Bytes) : Bytes := List.replicate 32 0x45 ++ List.replicate 32 0x36 ++ message

def outerInput (inner : Digest) : Bytes := List.replicate 32 0x2F ++ List.replicate 32 0x5C ++ inner.val

def peerHashes : List (Bytes × Digest) :=
  [(payload, payloadDigest), (innerInput (macInput payloadDigest barredOwner), payloadInner),
    (outerInput payloadInner, payloadMac), (otherObject, otherDigest),
    (innerInput (macInput otherDigest (py "node-beta")), otherInner), (outerInput otherInner, otherMac)]

def peerRuntime : Runtime where
  sha256 m := ((peerHashes.find? fun h => h.1 = m).map Prod.snd).getD zeroDigest
  printable _ := true
  nesting := 100

def peerStore : PeerObjectStore := ⟨py "node-alpha", List.replicate 32 0x73, ∅⟩

def peerCalls : List PeerCall :=
  [.store (.bytes payload) (.str barredOwner), .store (.bytes payload) (.str (py " ")), .retrieve (.dict []),
    .store (.bytes otherObject) (.str (py "node-beta")), .isAvailable (.str (py "x"))]

theorem contents_kept_sample :
    (∀ r ∈ receiptsOf peerRuntime peerStore peerCalls,
        (peerAfter peerRuntime peerStore peerCalls).retrieve peerRuntime (.dict r.1) = .ok r.2) ∧
      (peerAfter peerRuntime peerStore peerCalls).objectCount = 2 := by
  have hheld : heldAfter peerCalls = {payload, otherObject} := by decide +kernel
  have hdistinct : ∀ a ∈ ({payload, otherObject} : Finset Bytes), ∀ b ∈ ({payload, otherObject} : Finset Bytes),
      peerRuntime.sha256 a = peerRuntime.sha256 b → a = b := by decide +kernel
  have hfree : peerRuntime.CollisionFree (heldAfter peerCalls : Set Bytes) := by
    rw [hheld]
    exact fun a ha b hb hab => hdistinct a ha b hb hab
  have hcard : (heldAfter peerCalls).card = 2 := by
    rw [hheld]
    decide +kernel
  obtain ⟨hreceipts, -, hcount, -⟩ := contents_kept peerRuntime (.str (py "node-alpha"))
    (.bytes (List.replicate 32 0x73)) (.bool true) peerStore (by rfl) peerCalls hfree
  exact ⟨hreceipts, hcount.trans hcard⟩

end Sample

end V91Core.Store
