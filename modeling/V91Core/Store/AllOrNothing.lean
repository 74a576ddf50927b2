import V91Core.Effect.Atomic
import V91Core.Store.Relabel
import V91Core.Store.Redeem

namespace V91Core.Store

open V91Core.Python
open V91Core.Effect

variable (rt : Runtime)

-- The object that the receipt of a call that returns is for.
def receiptFor (result : Except PyExc (List (PyData × PyData))) : Option PyStr :=
  match result with
  | .ok entries =>
      match field entries "object_digest" with
      | .str digest => some digest
      | _ => none
  | .error _ => none

section Peer

namespace PeerObjectStore

-- The store has this object under this digest.
def holds (s : PeerObjectStore) (object : PyStr × Bytes) : Prop := s.objects.lookup object.1 = some object.2

-- `store` raises.
def raises (s : PeerObjectStore) : PeerCall → Prop
  | .store data ownerId => ∃ e, (s.store rt data ownerId).1 = .error e
  | _ => False

def receipts (s : PeerObjectStore) : PeerCall → Option PyStr
  | .store data ownerId => receiptFor (s.store rt data ownerId).1
  | _ => none

-- If the call hands over a new object, then the text of its receipt can be encoded.
def Receiptable (s : PeerObjectStore) (call : PeerCall) : Prop :=
  ∀ data ownerId, call = .store (.bytes data) (.str ownerId) → strip ownerId ≠ [] →
    s.objects.lookup (rt.sha256Hex data) = none → ∀ c ∈ ownerId ++ s.storeId, c.isSurrogate = false

end PeerObjectStore

-- Where no other object is under its digest, the data is added and nothing else changes.
theorem keep_holds (s : PeerObjectStore) (data : Bytes)
    (hfree : ∀ existing, s.objects.lookup (rt.sha256Hex data) = some existing → existing = data)
    (object : PyStr × Bytes) :
    (keep rt s data).holds object ↔ object = (rt.sha256Hex data, data) ∨ s.holds object := by
  obtain ⟨digest, bytes⟩ := object
  by_cases hsame : digest = rt.sha256Hex data
  · subst hsame
    simp only [PeerObjectStore.holds, keep, AList.lookup_insert, Option.some.injEq, Prod.mk.injEq, true_and]
    refine ⟨fun h => .inl h.symm, ?_⟩
    rintro (h | h)
    · exact h.symm
    · exact (hfree bytes h).symm
  · simp [PeerObjectStore.holds, keep, AList.lookup_insert_ne hsame, hsame]

-- A `store` call refuses its arguments and keeps the store, or it keeps the object and
-- builds the receipt.
theorem peer_store_cases (s : PeerObjectStore) (data ownerId : PyData) :
    ((∃ e, s.store rt data ownerId = (.error e, s)) ∧
        ∀ bs owner, data = .bytes bs → ownerId = .str owner → strip owner ≠ [] →
          (s.objects.lookup (rt.sha256Hex bs)).isSome = true) ∨
      ∃ bs owner, data = .bytes bs ∧ ownerId = .str owner ∧ strip owner ≠ [] ∧
        (∀ existing, s.objects.lookup (rt.sha256Hex bs) = some existing → existing = bs) ∧
        s.store rt data ownerId = ((keep rt s bs).issue rt (rt.sha256Hex bs) owner, keep rt s bs) := by
  cases data with
  | bytes bs =>
      cases howner : ownerId.nonBlank? with
      | none =>
          have hrefused : ∃ e, s.store rt (.bytes bs) ownerId = (.error e, s) := by
            simp only [PeerObjectStore.store, howner]
            exact ⟨_, rfl⟩
          refine .inl ⟨hrefused, ?_⟩
          rintro bs' owner - rfl hblank
          rw [(nonBlank?_eq_some (.str owner) owner).mpr ⟨rfl, hblank⟩] at howner
          cases howner
      | some owner =>
          obtain ⟨rfl, hblank⟩ := (nonBlank?_eq_some ownerId owner).mp howner
          by_cases hfree : ∀ existing, s.objects.lookup (rt.sha256Hex bs) = some existing → existing = bs
          · exact .inr ⟨bs, owner, rfl, rfl, hblank, hfree, store_kept rt s bs _ owner howner hfree⟩
          · simp only [not_forall] at hfree
            obtain ⟨existing, hlookup, hne⟩ := hfree
            have hcollides : ∃ e, s.store rt (.bytes bs) (.str owner) = (.error e, s) := by
              simp only [PeerObjectStore.store, howner, hlookup, ne_eq, hne, not_false_eq_true, if_true]
              exact ⟨_, rfl⟩
            refine .inl ⟨hcollides, ?_⟩
            rintro bs' owner' hbs - -
            obtain rfl := PyData.bytes.inj hbs
            rw [hlookup]
            rfl
  | _ => exact .inl ⟨⟨_, rfl⟩, by rintro bs owner hbs; cases hbs⟩

-- A receipt is built exactly when its text can be encoded.
theorem issue_isOk_iff (s : PeerObjectStore) (data : Bytes) (ownerId : PyStr) :
    (∃ receipt, s.issue rt (rt.sha256Hex data) ownerId = .ok receipt) ↔
      ∀ c ∈ ownerId ++ s.storeId, c.isSurrogate = false := by
  rw [← receiptText_encodable s (rt.sha256 data) ownerId, Option.isSome_iff_exists]
  constructor
  · rintro ⟨receipt, h⟩
    obtain ⟨message, hmessage, -⟩ := (bind_eq_ok _ _ _).mp h
    exact ⟨message, (issue_message s _ ownerId message).mp hmessage⟩
  · rintro ⟨message, h⟩
    exact ⟨_, (bind_eq_ok _ _ _).mpr ⟨message, (issue_message s _ ownerId message).mpr h, rfl⟩⟩

theorem peer_atomic_iff (s : PeerObjectStore) (call : PeerCall) :
    Atomic (PeerObjectStore.step rt) PeerObjectStore.holds (PeerObjectStore.raises rt) s call ↔
      s.Receiptable rt call := by
  cases call with
  | isAvailable value => exact iff_of_true nofun nofun
  | retrieve receipt => exact iff_of_true nofun nofun
  | store data ownerId =>
      rcases peer_store_cases rt s data ownerId with ⟨⟨e, hstore⟩, hknown⟩ |
        ⟨bs, owner, rfl, rfl, hblank, hfree, hstore⟩
      · refine iff_of_true ?_ ?_
        · intro _ object
          rw [PeerObjectStore.step, hstore]
        · intro bs owner hcall hblank hnew
          obtain ⟨rfl, rfl⟩ := PeerCall.store.inj hcall
          have hsome := hknown bs owner rfl rfl hblank
          rw [hnew] at hsome
          cases hsome
      · have hissue := issue_isOk_iff rt (keep rt s bs) bs owner
        constructor
        · intro hatomic bs' owner' hcall _ hnew
          obtain ⟨hbs, howner⟩ := PeerCall.store.inj hcall
          obtain rfl := PyData.bytes.inj hbs
          obtain rfl := PyData.str.inj howner
          refine hissue.mp ?_
          by_contra hfails
          -- The receipt cannot be built, but the object is kept.
          have hraises : s.raises rt (.store (.bytes bs) (.str owner)) := by
            rw [PeerObjectStore.raises, hstore]
            cases hresult : (keep rt s bs).issue rt (rt.sha256Hex bs) owner with
            | error e => exact ⟨e, rfl⟩
            | ok receipt => exact absurd ⟨receipt, hresult⟩ hfails
          have hheld := (hatomic hraises (rt.sha256Hex bs, bs)).mp (by
            rw [PeerObjectStore.step, hstore]
            exact (keep_holds rt s bs hfree _).mpr (.inl rfl))
          rw [PeerObjectStore.holds, hnew] at hheld
          cases hheld
        · intro hreceiptable hraises object
          obtain ⟨e, herror⟩ := hraises
          rw [hstore] at herror
          rw [PeerObjectStore.step, hstore, keep_holds rt s bs hfree]
          refine or_iff_right_of_imp ?_
          rintro rfl
          cases hlookup : s.objects.lookup (rt.sha256Hex bs) with
          | some existing =>
              rw [hfree existing hlookup] at hlookup
              exact hlookup
          | none =>
              obtain ⟨receipt, hok⟩ := hissue.mpr (hreceiptable bs owner rfl hblank hlookup)
              rw [hok] at herror
              cases herror

-- A call that returns adds at most the object that its receipt is for.
theorem peer_adds (s : PeerObjectStore) (call : PeerCall) (object : PyStr × Bytes)
    (hreturns : ¬ s.raises rt call) (hheld : (s.step rt call).holds object) :
    s.holds object ∨ s.receipts rt call = some object.1 := by
  cases call with
  | isAvailable value => exact .inl hheld
  | retrieve receipt => exact .inl hheld
  | store data ownerId =>
      rcases peer_store_cases rt s data ownerId with ⟨⟨e, hstore⟩, -⟩ | ⟨bs, owner, rfl, rfl, -, hfree, hstore⟩
      · exact absurd ⟨e, by rw [hstore]⟩ hreturns
      · rw [PeerObjectStore.step, hstore] at hheld
        rcases (keep_holds rt s bs hfree object).mp hheld with rfl | hbefore
        · refine .inr ?_
          rw [PeerObjectStore.receipts, hstore]
          cases hresult : (keep rt s bs).issue rt (rt.sha256Hex bs) owner with
          | error e => exact absurd ⟨e, by rw [hstore, hresult]⟩ hreturns
          | ok receipt =>
              obtain ⟨message, -, hreceipt⟩ := (bind_eq_ok _ _ _).mp hresult
              rw [← Except.ok.inj hreceipt]
              rfl
        · exact .inl hbefore

end Peer

section Encrypted

variable (ed : Ed25519) (aes : AesGcm)

namespace EncryptedObjectStore

-- The store has this nonce and this ciphertext under this digest.
def holds (s : EncryptedObjectStore) (object : PyStr × Bytes × Bytes) : Prop :=
  s.entries.lookup object.1 = some object.2

-- `store` raises.
def raises (s : EncryptedObjectStore) : EncryptedCall → Prop
  | .store data ownerId nonce => ∃ e, (s.store rt ed aes data ownerId nonce).1 = .error e
  | _ => False

def receipts (s : EncryptedObjectStore) : EncryptedCall → Option PyStr
  | .store data ownerId nonce => receiptFor (s.store rt ed aes data ownerId nonce).1
  | _ => none

-- There is no signing key, or one of 32 bytes and a receipt that can be encoded.
def Signable (s : EncryptedObjectStore) (ownerId : PyStr) : Prop :=
  s.signingKey = .none ∨ (∃ key, s.signingKey = .bytes key ∧ key.length = 32) ∧
    (∀ c ∈ ownerId ++ s.storeId, c.isSurrogate = false) ∧ 0 < rt.nesting

-- If the call hands over a new object that can be encrypted, then its receipt can be signed.
def Receiptable (s : EncryptedObjectStore) (call : EncryptedCall) : Prop :=
  ∀ data ownerId nonce associated ciphertext, call = .store (.bytes data) (.str ownerId) nonce →
    strip ownerId ≠ [] → s.entries.lookup (rt.sha256Hex data) = none → encodeUtf8 s.storeId = .ok associated →
    aes.encrypt s.masterKey nonce data associated = .ok ciphertext → s.Signable rt ownerId

end EncryptedObjectStore

-- The store with an entry under the digest of some data.
def encrypted (s : EncryptedObjectStore) (data : Bytes) (entry : Bytes × Bytes) : EncryptedObjectStore :=
  { s with entries := s.entries.insert (rt.sha256Hex data) entry }

-- A new entry is added, and nothing else changes.
theorem encrypted_holds (s : EncryptedObjectStore) (data : Bytes) (entry : Bytes × Bytes)
    (hnew : s.entries.lookup (rt.sha256Hex data) = none) (object : PyStr × Bytes × Bytes) :
    (encrypted rt s data entry).holds object ↔ object = (rt.sha256Hex data, entry) ∨ s.holds object := by
  obtain ⟨digest, other⟩ := object
  by_cases hsame : digest = rt.sha256Hex data
  · subst hsame
    simp [EncryptedObjectStore.holds, encrypted, AList.lookup_insert, hnew, eq_comm]
  · simp [EncryptedObjectStore.holds, encrypted, AList.lookup_insert_ne hsame, hsame]

-- A receipt that is built names its object.
theorem encrypted_issue_digest (s : EncryptedObjectStore) (digest ownerId : PyStr) (entry : Bytes × Bytes)
    (receipt : List (PyData × PyData)) (h : s.issue rt ed digest ownerId entry = .ok receipt) :
    receiptFor (.ok receipt) = some digest := by
  have hfield : field receipt "object_digest" = .str digest := by
    unfold EncryptedObjectStore.issue at h
    split at h
    · rw [← Except.ok.inj h]
      rfl
    · obtain ⟨signature, -, h⟩ := (bind_eq_ok _ _ _).mp h
      rw [← Except.ok.inj h, field, PyData.get?_insert_of_ne _ _ _ _ (by decide +kernel)]
      rfl
  rw [receiptFor, hfield]

-- A receipt can be put into bytes exactly when its names can be encoded.
theorem receiptBytes_isOk_iff (s : EncryptedObjectStore) (data : Bytes) (ownerId : PyStr) (entry : Bytes × Bytes) :
    (∃ message, canonicalRecordBytes rt (PyData.ofFields
        (s.receiptFields rt (rt.sha256Hex data) ownerId entry)) = .ok message) ↔
      (∀ c ∈ ownerId ++ s.storeId, c.isSurrogate = false) ∧ 0 < rt.nesting := by
  have hdigest := ascii_encodable _ (isAscii_hexdigest (rt.sha256 data))
  have hciphertext := ascii_encodable _ (isAscii_hexdigest (rt.sha256 entry.2))
  have hnonce : ∀ c ∈ bytesHex entry.1, c.isSurrogate = false :=
    ascii_encodable _ (List.all_eq_true.mpr fun c hc => isAscii_of_isHexChar c (flatMap_hexByte_chars entry.1 c hc))
  have halgorithm := ascii_encodable (py "ED25519") (by decide)
  have hencryption := ascii_encodable encryptionStatus (by decide +kernel)
  have hkeys : ∀ key ∈ (s.receiptFields rt (rt.sha256Hex data) ownerId entry).map Prod.fst,
      ∀ c ∈ key, c.isSurrogate = false := by
    intro key hkey
    refine ascii_encodable key ?_
    have hall : ∀ key ∈ [py "object_digest", py "owner_id", py "store_id", py "algorithm", py "encryption",
        py "nonce", py "ciphertext_digest"], isAscii key = true := by decide +kernel
    exact hall key hkey
  have hfits : Json.Fits true rt.nesting (.obj (s.receiptFields rt (rt.sha256Hex data) ownerId entry)) ↔
      0 < rt.nesting := by
    simp [Json.Fits, EncryptedObjectStore.receiptFields]
  rw [canonicalRecordBytes_ofFields, Json.dumps_utf8_isOk rt .canonical rfl]
  simp only [Json.Style.canonical, hfits, Json.AllChars, Json.allCharsFields_iff]
  constructor
  · rintro ⟨hnesting, hall⟩
    have howner := (hall (py "owner_id", .str ownerId) (by simp [EncryptedObjectStore.receiptFields])).2
    have hstore := (hall (py "store_id", .str s.storeId) (by simp [EncryptedObjectStore.receiptFields])).2
    exact ⟨List.forall_mem_append.mpr ⟨howner, hstore⟩, hnesting⟩
  · rintro ⟨hchars, hnesting⟩
    obtain ⟨howner, hstore⟩ := List.forall_mem_append.mp hchars
    refine ⟨hnesting, fun f hf => ⟨hkeys f.1 (List.mem_map_of_mem hf), ?_⟩⟩
    simp only [EncryptedObjectStore.receiptFields, List.mem_cons, List.not_mem_nil, or_false] at hf
    rcases hf with rfl | rfl | rfl | rfl | rfl | rfl | rfl
    · exact hdigest
    · exact howner
    · exact hstore
    · exact halgorithm
    · exact hencryption
    · exact hnonce
    · exact hciphertext

theorem signReceipt_isOk_iff (s : EncryptedObjectStore) (data : Bytes) (ownerId : PyStr) (entry : Bytes × Bytes)
    (signingKey : PyData) :
    (∃ signature, signRecord rt ed (.dict (PyData.ofFields
        (s.receiptFields rt (rt.sha256Hex data) ownerId entry))) signingKey = .ok signature) ↔
      (∃ key, signingKey = .bytes key ∧ key.length = 32) ∧
        (∀ c ∈ ownerId ++ s.storeId, c.isSurrogate = false) ∧ 0 < rt.nesting := by
  have hunsigned : PyData.get? signatureField (PyData.ofFields
      (s.receiptFields rt (rt.sha256Hex data) ownerId entry)) = none := by rfl
  rw [← receiptBytes_isOk_iff rt s data ownerId entry]
  simp only [signRecord_eq_ok, hunsigned, true_and]
  constructor
  · rintro ⟨_, key, message, hkey, hlength, hbytes, -⟩
    exact ⟨⟨key, hkey, hlength⟩, message, hbytes⟩
  · rintro ⟨⟨key, hkey, hlength⟩, message, hbytes⟩
    exact ⟨_, key, message, hkey, hlength, hbytes, rfl⟩

-- A receipt is built exactly when it can be signed.
theorem encrypted_issue_isOk_iff (s : EncryptedObjectStore) (data : Bytes) (ownerId : PyStr) (entry : Bytes × Bytes) :
    (∃ receipt, s.issue rt ed (rt.sha256Hex data) ownerId entry = .ok receipt) ↔ s.Signable rt ownerId := by
  unfold EncryptedObjectStore.issue EncryptedObjectStore.Signable
  split
  · next hnone => exact iff_of_true ⟨_, rfl⟩ (.inl hnone)
  · next hsome =>
      rw [or_iff_right hsome, ← signReceipt_isOk_iff rt ed s data ownerId entry]
      simp only [bind_eq_ok, Except.ok.injEq]
      constructor
      · rintro ⟨_, signature, hsignature, -⟩
        exact ⟨signature, hsignature⟩
      · rintro ⟨signature, hsignature⟩
        exact ⟨_, signature, hsignature, rfl⟩

-- A `store` call keeps the store, or it keeps a new entry and builds the receipt.
theorem encrypted_store_cases (s : EncryptedObjectStore) (data ownerId : PyData) (nonce : Bytes) :
    ((s.store rt ed aes data ownerId nonce).2 = s ∧
        ∀ bs owner associated ciphertext, data = .bytes bs → ownerId = .str owner → strip owner ≠ [] →
          encodeUtf8 s.storeId = .ok associated → aes.encrypt s.masterKey nonce bs associated = .ok ciphertext →
          (s.entries.lookup (rt.sha256Hex bs)).isSome = true) ∨
      ∃ bs owner associated ciphertext, data = .bytes bs ∧ ownerId = .str owner ∧ strip owner ≠ [] ∧
        s.entries.lookup (rt.sha256Hex bs) = none ∧ encodeUtf8 s.storeId = .ok associated ∧
        aes.encrypt s.masterKey nonce bs associated = .ok ciphertext ∧
        s.store rt ed aes data ownerId nonce =
          ((encrypted rt s bs (nonce, ciphertext)).issue rt ed (rt.sha256Hex bs) owner (nonce, ciphertext),
            encrypted rt s bs (nonce, ciphertext)) := by
  cases data with
  | bytes bs =>
      cases howner : ownerId.nonBlank? with
      | none =>
          refine .inl ⟨by simp only [EncryptedObjectStore.store, howner], ?_⟩
          rintro _ owner _ _ - rfl hblank - -
          rw [(nonBlank?_eq_some (.str owner) owner).mpr ⟨rfl, hblank⟩] at howner
          cases howner
      | some owner =>
          obtain ⟨rfl, hblank⟩ := (nonBlank?_eq_some ownerId owner).mp howner
          cases hlookup : s.entries.lookup (rt.sha256Hex bs) with
          | some entry =>
              have hstore : s.store rt ed aes (.bytes bs) (.str owner) nonce =
                  (s.issue rt ed (rt.sha256Hex bs) owner entry, s) := by
                simp only [EncryptedObjectStore.store, howner, EncryptedObjectStore.entryFor, hlookup]
              refine .inl ⟨by rw [hstore], ?_⟩
              rintro bs' _ _ _ hbs - - - -
              obtain rfl := PyData.bytes.inj hbs
              rw [hlookup]
              rfl
          | none =>
              cases hassociated : encodeUtf8 s.storeId with
              | error e =>
                  refine .inl ⟨by
                    simp only [EncryptedObjectStore.store, howner, EncryptedObjectStore.entryFor, hlookup, hassociated]
                    rfl, ?_⟩
                  rintro _ _ _ _ - - - hok -
                  cases hok
              | ok associated =>
                  cases hencrypt : aes.encrypt s.masterKey nonce bs associated with
                  | error e =>
                      refine .inl ⟨by
                        simp only [EncryptedObjectStore.store, howner, EncryptedObjectStore.entryFor, hlookup,
                          hassociated, hencrypt, bind, Except.bind], ?_⟩
                      rintro bs' _ _ ciphertext hbs - - hok hciphertext
                      obtain rfl := PyData.bytes.inj hbs
                      obtain rfl := Except.ok.inj hok
                      rw [hencrypt] at hciphertext
                      cases hciphertext
                  | ok ciphertext =>
                      refine .inr ⟨bs, owner, associated, ciphertext, rfl, rfl, hblank, hlookup, rfl, hencrypt, ?_⟩
                      simp only [EncryptedObjectStore.store, howner, EncryptedObjectStore.entryFor, hlookup,
                        hassociated, hencrypt, bind, Except.bind]
                      rfl
  | _ =>
      exact .inl ⟨rfl, by rintro _ _ _ _ hbs; cases hbs⟩

theorem encrypted_atomic_iff (s : EncryptedObjectStore) (call : EncryptedCall) :
    Atomic (EncryptedObjectStore.step rt ed aes) EncryptedObjectStore.holds
        (EncryptedObjectStore.raises rt ed aes) s call ↔ s.Receiptable rt aes call := by
  cases call with
  | isAvailable value => exact iff_of_true nofun nofun
  | retrieve receipt => exact iff_of_true nofun nofun
  | store data ownerId nonce =>
      rcases encrypted_store_cases rt ed aes s data ownerId nonce with ⟨hsame, hknown⟩ |
        ⟨bs, owner, associated, ciphertext, rfl, rfl, hblank, hnew, hassociated, hencrypt, hstore⟩
      · refine iff_of_true ?_ ?_
        · intro _ object
          rw [EncryptedObjectStore.step, hsame]
        · intro bs owner nonce' associated ciphertext hcall hblank hnew hassociated hencrypt
          obtain ⟨rfl, rfl, rfl⟩ := EncryptedCall.store.inj hcall
          have hsome := hknown bs owner associated ciphertext rfl rfl hblank hassociated hencrypt
          rw [hnew] at hsome
          cases hsome
      · have hissue := encrypted_issue_isOk_iff rt ed (encrypted rt s bs (nonce, ciphertext)) bs owner
          (nonce, ciphertext)
        constructor
        · intro hatomic bs' owner' nonce' associated' ciphertext' hcall _ _ _ _
          obtain ⟨hbs, howner, -⟩ := EncryptedCall.store.inj hcall
          obtain rfl := PyData.bytes.inj hbs
          obtain rfl := PyData.str.inj howner
          refine hissue.mp ?_
          by_contra hfails
          -- The receipt cannot be built, but the entry is kept.
          have hraises : s.raises rt ed aes (.store (.bytes bs) (.str owner) nonce) := by
            rw [EncryptedObjectStore.raises, hstore]
            cases hresult : (encrypted rt s bs (nonce, ciphertext)).issue rt ed (rt.sha256Hex bs) owner
                (nonce, ciphertext) with
            | error e => exact ⟨e, rfl⟩
            | ok receipt => exact absurd ⟨receipt, hresult⟩ hfails
          have hheld := (hatomic hraises (rt.sha256Hex bs, nonce, ciphertext)).mp (by
            rw [EncryptedObjectStore.step, hstore]
            exact (encrypted_holds rt s bs _ hnew _).mpr (.inl rfl))
          rw [EncryptedObjectStore.holds, hnew] at hheld
          cases hheld
        · intro hreceiptable hraises
          obtain ⟨e, herror⟩ := hraises
          obtain ⟨receipt, hok⟩ := hissue.mpr
            (hreceiptable bs owner nonce associated ciphertext rfl hblank hnew hassociated hencrypt)
          rw [hstore, hok] at herror
          cases herror

theorem encrypted_adds (s : EncryptedObjectStore) (call : EncryptedCall) (object : PyStr × Bytes × Bytes)
    (hreturns : ¬ s.raises rt ed aes call) (hheld : (s.step rt ed aes call).holds object) :
    s.holds object ∨ s.receipts rt ed aes call = some object.1 := by
  cases call with
  | isAvailable value => exact .inl hheld
  | retrieve receipt => exact .inl hheld
  | store data ownerId nonce =>
      rcases encrypted_store_cases rt ed aes s data ownerId nonce with ⟨hsame, -⟩ |
        ⟨bs, owner, associated, ciphertext, rfl, rfl, -, hnew, -, -, hstore⟩
      · rw [EncryptedObjectStore.step, hsame] at hheld
        exact .inl hheld
      · rw [EncryptedObjectStore.step, hstore] at hheld
        rcases (encrypted_holds rt s bs _ hnew object).mp hheld with rfl | hbefore
        · refine .inr ?_
          rw [EncryptedObjectStore.receipts, hstore]
          cases hresult : (encrypted rt s bs (nonce, ciphertext)).issue rt ed (rt.sha256Hex bs) owner
              (nonce, ciphertext) with
          | error e => exact absurd ⟨e, by rw [hstore, hresult]⟩ hreturns
          | ok receipt => exact encrypted_issue_digest rt ed _ _ owner _ receipt hresult
        · exact .inl hbefore

end Encrypted

-- Both stores are all-or-nothing in the runs in which the receipt of every new object
-- can be built, and in no others.
theorem store_all_or_nothing_iff (ed : Ed25519) (aes : AesGcm) :
    (∀ storeId sharedSecret optIn s₀, PeerObjectStore.init storeId sharedSecret optIn = .ok s₀ → ∀ calls,
      AllOrNothing (PeerObjectStore.step rt) PeerObjectStore.holds (PeerObjectStore.raises rt)
          Prod.fst (PeerObjectStore.receipts rt) s₀ calls ↔
        EachStep (PeerObjectStore.step rt) (PeerObjectStore.Receiptable rt) s₀ calls) ∧
    ∀ storeId masterKey optIn signingKey s₀,
      EncryptedObjectStore.init storeId masterKey optIn signingKey = .ok s₀ → ∀ calls,
      AllOrNothing (EncryptedObjectStore.step rt ed aes) EncryptedObjectStore.holds
          (EncryptedObjectStore.raises rt ed aes) Prod.fst (EncryptedObjectStore.receipts rt ed aes) s₀ calls ↔
        EachStep (EncryptedObjectStore.step rt ed aes) (EncryptedObjectStore.Receiptable rt aes) s₀ calls := by
  constructor
  · intro storeId sharedSecret optIn s₀ hinit calls
    have hempty : ∀ object, ¬ s₀.holds object := by
      intro object
      simp [PeerObjectStore.holds, peer_init storeId sharedSecret optIn s₀ hinit]
    rw [allOrNothing_iff (peer_adds rt) s₀ hempty calls]
    exact EachStep.congr (peer_atomic_iff rt) s₀ calls
  · intro storeId masterKey optIn signingKey s₀ hinit calls
    have hempty : ∀ object, ¬ s₀.holds object := by
      intro object
      simp [EncryptedObjectStore.holds, (init_entries storeId masterKey optIn signingKey s₀ hinit).1]
    rw [allOrNothing_iff (encrypted_adds rt ed aes) s₀ hempty calls]
    exact EachStep.congr (encrypted_atomic_iff rt ed aes) s₀ calls

section Sample

-- An owner with a lone surrogate, and a store with a signing key of three bytes.
def unencodableOwner : PyStr := [chr 0xD800]

def badKeyStore : EncryptedObjectStore := ⟨py "node-alpha", sampleMaster, .bytes [1, 2, 3], ∅⟩

def sampleStoreCalls : List EncryptedCall :=
  [.store (.bytes sampleData) (.str (py "node-beta")) sampleNonce,
    .store (.bytes sampleData) (.str (py " ")) sampleNonce,
    .store (.bytes sampleData) (.str (py "node-gamma")) sampleNonce]

theorem error_of_isOk (result : Except PyExc α) (h : result.isOk = false) : ∃ e, result = .error e := by
  cases result with
  | ok a => cases h
  | error e => exact ⟨e, rfl⟩

theorem failed_store_keeps_object :
    PeerObjectStore.init (.str (py "node-alpha")) (.bytes (List.replicate 32 0x73)) (.bool true) = .ok peerStore ∧
      ¬ peerStore.holds (hexdigest payloadDigest, payload) ∧
      peerStore.raises peerRuntime (.store (.bytes payload) (.str unencodableOwner)) ∧
      (peerStore.step peerRuntime (.store (.bytes payload) (.str unencodableOwner))).holds
        (hexdigest payloadDigest, payload) ∧
      EncryptedObjectStore.init (.str (py "node-alpha")) (.bytes sampleMaster) (.bool true) (.bytes [1, 2, 3]) =
        .ok badKeyStore ∧
      ¬ badKeyStore.holds (hexdigest sampleDigest, sampleNonce, sampleCiphertext) ∧
      badKeyStore.raises sampleRuntime sampleEd sampleAes
        (.store (.bytes sampleData) (.str (py "node-beta")) sampleNonce) ∧
      (badKeyStore.step sampleRuntime sampleEd sampleAes
        (.store (.bytes sampleData) (.str (py "node-beta")) sampleNonce)).holds
        (hexdigest sampleDigest, sampleNonce, sampleCiphertext) := by
  unfold PeerObjectStore.holds EncryptedObjectStore.holds
  refine ⟨by rfl, by simp [peerStore], ?_, ?_, by rfl, by simp [badKeyStore], ?_, ?_⟩
  · exact error_of_isOk _ (by decide +kernel)
  · decide +kernel
  · exact error_of_isOk _ (by decide +kernel)
  · decide +kernel

-- Two objects, a refused owner and an unknown receipt in one store, one object twice in
-- the other one.
theorem store_all_or_nothing_sample :
    AllOrNothing (PeerObjectStore.step peerRuntime) PeerObjectStore.holds (PeerObjectStore.raises peerRuntime)
        Prod.fst (PeerObjectStore.receipts peerRuntime) peerStore peerCalls ∧
      AllOrNothing (EncryptedObjectStore.step sampleRuntime sampleEd sampleAes) EncryptedObjectStore.holds
        (EncryptedObjectStore.raises sampleRuntime sampleEd sampleAes) Prod.fst
        (EncryptedObjectStore.receipts sampleRuntime sampleEd sampleAes) sampleStore sampleStoreCalls := by
  constructor
  · refine ((store_all_or_nothing_iff peerRuntime sampleEd sampleAes).1 (.str (py "node-alpha"))
      (.bytes (List.replicate 32 0x73)) (.bool true) peerStore (by rfl) peerCalls).mpr ?_
    refine (eachStep_iff_split _ _ _).mpr ?_
    rintro before _ hbefore data owner rfl - -
    have hmem : PeerCall.store (.bytes data) (.str owner) ∈ peerCalls := hbefore.subset (by simp)
    have hstoreId : (runFrom (PeerObjectStore.step peerRuntime) peerStore before).storeId = py "node-alpha" :=
      (peer_setup peerRuntime peerStore before).1
    rw [hstoreId]
    simp only [peerCalls, List.mem_cons, PeerCall.store.injEq, PyData.str.injEq, reduceCtorEq, false_or, or_false,
      List.not_mem_nil] at hmem
    rcases hmem with ⟨-, rfl⟩ | ⟨-, rfl⟩ | ⟨-, rfl⟩
    all_goals exact ascii_encodable _ (by decide)
  · refine ((store_all_or_nothing_iff sampleRuntime sampleEd sampleAes).2 (.str (py "node-alpha"))
      (.bytes sampleMaster) (.bool true) (.bytes sampleKey) sampleStore (by rfl) sampleStoreCalls).mpr ?_
    refine (eachStep_iff_split _ _ _).mpr ?_
    rintro before _ hbefore data owner nonce associated ciphertext rfl - - - -
    have hmem : EncryptedCall.store (.bytes data) (.str owner) nonce ∈ sampleStoreCalls := hbefore.subset (by simp)
    obtain ⟨hstoreId, -, hsigningKey⟩ := run_setup sampleRuntime sampleEd sampleAes sampleStore before
    rw [EncryptedObjectStore.Signable, hstoreId, hsigningKey]
    refine .inr ⟨⟨sampleKey, rfl, rfl⟩, ?_, by decide⟩
    simp only [sampleStoreCalls, List.mem_cons, EncryptedCall.store.injEq, PyData.str.injEq, or_false,
      List.not_mem_nil] at hmem
    rcases hmem with ⟨-, rfl, -⟩ | ⟨-, rfl, -⟩ | ⟨-, rfl, -⟩
    all_goals exact ascii_encodable _ (by decide)

end Sample

end V91Core.Store
