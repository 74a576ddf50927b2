import V91Core.Store.Encrypted

namespace V91Core.Store

open V91Core.Python
open V91Core.Effect

variable (rt : Runtime) (ed : Ed25519) (aes : AesGcm)

section Retrieve

-- The receipt names an entry of the store and agrees with it.
structure Names (s : EncryptedObjectStore) (entries : List (PyData × PyData)) (key : PyStr)
    (entry : Bytes × Bytes) : Prop where
  keys : ∀ key ∈ requiredKeys, (PyData.get? (py key) entries).isSome = true
  storeId : field entries "store_id" = .str s.storeId
  encryption : field entries "encryption" = .str encryptionStatus
  digest : field entries "object_digest" = .str key
  held : s.entries.lookup key = some entry
  ciphertext : field entries "ciphertext_digest" = .str (rt.sha256Hex entry.2)

-- There is no signature, or it verifies under the key that the receipt brings along.
def SignaturePasses (entries : List (PyData × PyData)) : Prop :=
  PyData.get? signatureField entries = none ∨
    ∃ key, publicKeyFor entries = .ok key ∧ verifyRecordSignature rt ed (.dict entries) (.bytes key) = true

theorem checkReceiptSignature_eq_ok (entries : List (PyData × PyData)) (u : Unit) :
    checkReceiptSignature rt ed entries = .ok u ↔ SignaturePasses rt ed entries := by
  unfold checkReceiptSignature SignaturePasses
  cases PyData.get? signatureField entries with
  | none => simp
  | some value =>
      cases publicKeyFor entries with
      | error e => simp [bind, Except.bind]
      | ok key => by_cases hv : verifyRecordSignature rt ed (.dict entries) (.bytes key) = true <;>
          simp [bind, Except.bind, hv]

theorem refuse_ne_ok (before : String) (digest : PyData) (after : String) (a : α) :
    EncryptedObjectStore.refuse rt before digest after ≠ (.ok a : Except PyExc α) := by
  unfold EncryptedObjectStore.refuse
  cases digest.toStr rt <;> simp [bind, Except.bind]

-- `data` is what the ciphertext of this entry decrypts to.
def Opens (s : EncryptedObjectStore) (entry : Bytes × Bytes) (data : Bytes) : Prop :=
  ∃ associated, encodeUtf8 s.storeId = .ok associated ∧
    aes.decrypt s.masterKey entry.1 entry.2 associated = some data

theorem openEntry_eq_ok (s : EncryptedObjectStore) (digest expected : PyData) (data : Bytes) :
    s.openEntry rt aes digest expected = .ok data ↔
      ∃ key entry, digest = .str key ∧ s.entries.lookup key = some entry ∧
        expected = .str (rt.sha256Hex entry.2) ∧ Opens aes s entry data ∧ rt.sha256Hex data = key := by
  constructor
  · intro h
    obtain ⟨key, hkey, h⟩ := (bind_eq_ok _ _ _).mp h
    cases hentry : key.bind s.entries.lookup with
    | none => rw [hentry] at h; exact absurd h (refuse_ne_ok rt _ _ _ _)
    | some entry =>
        obtain ⟨k, rfl, hlookup⟩ := Option.bind_eq_some_iff.mp hentry
        have hdigest : digest = .str k := by
          unfold PyData.lookupKey at hkey
          split at hkey
          · split at hkey <;> simp_all
          · cases hkey
        simp only [hentry] at h
        split at h
        · exact absurd h (refuse_ne_ok rt _ _ _ _)
        · next hexpected =>
            obtain ⟨associated, hassociated, h⟩ := (bind_eq_ok _ _ _).mp h
            cases hplain : aes.decrypt s.masterKey entry.1 entry.2 associated with
            | none => rw [hplain] at h; exact absurd h (refuse_ne_ok rt _ _ _ _)
            | some plaintext =>
                simp only [hplain] at h
                split at h
                · next hsame =>
                    obtain rfl := Except.ok.inj h
                    rw [isStr_iff, hdigest, PyData.str.injEq] at hsame
                    exact ⟨k, entry, hdigest, hlookup, (isStr_iff _ _).mp (by simpa using hexpected),
                      ⟨associated, hassociated, hplain⟩, hsame.symm⟩
                · exact absurd h (refuse_ne_ok rt _ _ _ _)
  · rintro ⟨key, entry, rfl, hlookup, rfl, ⟨associated, hassociated, hplain⟩, hsame⟩
    simp [EncryptedObjectStore.openEntry, PyData.lookupKey, PyData.hashable, bind, Except.bind, hlookup,
      PyData.isStr, hassociated, hplain, hsame]

theorem retrieve_eq_ok (s : EncryptedObjectStore) (entries : List (PyData × PyData)) (data : Bytes) :
    s.retrieve rt ed aes (.dict entries) = .ok data ↔
      SignaturePasses rt ed entries ∧
        ∃ key entry, Names rt s entries key entry ∧ Opens aes s entry data ∧ rt.sha256Hex data = key := by
  have hkeys := requireKeys_eq_ok entries .encryptedIntegrityError requiredKeys ()
  have hsignature := checkReceiptSignature_eq_ok rt ed entries ()
  constructor
  · intro h
    obtain ⟨_, hrequired, h⟩ := (bind_eq_ok _ _ _).mp h
    by_cases hstore : (field entries "store_id").isStr s.storeId = true
    · by_cases hstatus : (field entries "encryption").isStr encryptionStatus = true
      · simp only [hstore, hstatus, Bool.not_true, Bool.false_eq_true, if_false] at h
        obtain ⟨_, hpasses, h⟩ := (bind_eq_ok _ _ _).mp h
        obtain ⟨key, entry, hdigest, hlookup, hexpected, hopens, hsame⟩ := (openEntry_eq_ok rt aes s _ _ _).mp h
        exact ⟨hsignature.mp hpasses, key, entry, ⟨hkeys.mp hrequired, (isStr_iff _ _).mp hstore,
          (isStr_iff _ _).mp hstatus, hdigest, hlookup, hexpected⟩, hopens, hsame⟩
      · simp [hstore, hstatus, bind, Except.bind] at h
        split at h <;> cases h
    · simp [hstore, bind, Except.bind] at h
  · rintro ⟨hpasses, key, entry, hnames, hopens, hsame⟩
    have hopen := (openEntry_eq_ok rt aes s _ _ data).mpr
      ⟨key, entry, hnames.digest, hnames.held, hnames.ciphertext, hopens, hsame⟩
    simp [EncryptedObjectStore.retrieve, hkeys.mpr hnames.keys, hnames.storeId, hnames.encryption,
      hsignature.mpr hpasses, PyData.isStr, bind, Except.bind, hopen]

end Retrieve

section Calls

-- What a call keeps of the store, and what it can add to it.
theorem entryFor_eq_ok (s after : EncryptedObjectStore) (digest : PyStr) (data nonce : Bytes)
    (entry : Bytes × Bytes) (h : s.entryFor aes digest data nonce = .ok (entry, after)) :
    (s.entries.lookup digest = some entry ∧ after = s) ∨
      ∃ associated ciphertext, encodeUtf8 s.storeId = .ok associated ∧
        aes.encrypt s.masterKey nonce data associated = .ok ciphertext ∧ entry = (nonce, ciphertext) ∧
        after = { s with entries := s.entries.insert digest entry } := by
  unfold EncryptedObjectStore.entryFor at h
  split at h
  · next held hheld =>
      obtain ⟨rfl, rfl⟩ := Prod.mk.inj (Except.ok.inj h)
      exact .inl ⟨hheld, rfl⟩
  · obtain ⟨associated, hassociated, h⟩ := (bind_eq_ok _ _ _).mp h
    obtain ⟨ciphertext, hciphertext, h⟩ := (bind_eq_ok _ _ _).mp h
    obtain ⟨rfl, rfl⟩ := Prod.mk.inj (Except.ok.inj h)
    exact .inr ⟨associated, ciphertext, hassociated, hciphertext, rfl, rfl⟩

-- A call leaves the store as it was, or it stores data under its digest.
theorem step_cases (s : EncryptedObjectStore) (call : EncryptedCall) :
    s.step rt ed aes call = s ∨ ∃ data nonce associated ciphertext,
      encodeUtf8 s.storeId = .ok associated ∧ aes.encrypt s.masterKey nonce data associated = .ok ciphertext ∧
      s.step rt ed aes call =
        { s with entries := s.entries.insert (rt.sha256Hex data) (nonce, ciphertext) } := by
  cases call with
  | isAvailable digest => exact .inl rfl
  | retrieve receipt => exact .inl rfl
  | store data ownerId nonce =>
      simp only [EncryptedObjectStore.step, EncryptedObjectStore.store]
      split
      · next data ownerId _ =>
          split
          · next entry after hentry =>
              rcases entryFor_eq_ok aes s after _ data nonce entry hentry with ⟨-, rfl⟩ |
                ⟨associated, ciphertext, hassociated, hciphertext, rfl, rfl⟩
              · exact .inl rfl
              · exact .inr ⟨data, nonce, associated, ciphertext, hassociated, hciphertext, rfl⟩
          · exact .inl rfl
      · exact .inl rfl
      · exact .inl rfl

-- The constructor's arguments stay as they are.
def SameSetup (s₀ s : EncryptedObjectStore) : Prop :=
  s.storeId = s₀.storeId ∧ s.masterKey = s₀.masterKey ∧ s.signingKey = s₀.signingKey

theorem run_setup (s : EncryptedObjectStore) (calls : List EncryptedCall) :
    SameSetup s (runFrom (EncryptedObjectStore.step rt ed aes) s calls) := by
  refine runFrom_inv (SameSetup s) ?_ s calls ⟨rfl, rfl, rfl⟩
  intro s' call h
  rcases step_cases rt ed aes s' call with hcall | ⟨data, nonce, associated, ciphertext, -, -, hcall⟩
  · rw [hcall]
    exact h
  · rw [hcall]
    exact h

theorem init_entries (storeId masterKey optIn signingKey : PyData) (s : EncryptedObjectStore)
    (h : EncryptedObjectStore.init storeId masterKey optIn signingKey = .ok s) :
    s.entries = ∅ ∧ s.signingKey = signingKey := by
  unfold EncryptedObjectStore.init at h
  by_cases hopt : optIn.isTrue = true
  · simp only [hopt, Bool.not_true, Bool.false_eq_true, if_false] at h
    obtain ⟨id, -, h⟩ := (bind_eq_ok _ _ _).mp h
    split at h
    · split at h
      · obtain rfl := Except.ok.inj h
        exact ⟨rfl, rfl⟩
      · cases h
    · cases h
  · simp [hopt, bind, Except.bind] at h

-- Every entry opens to data of its digest.
def AllOpen (s : EncryptedObjectStore) : Prop :=
  ∀ key entry, s.entries.lookup key = some entry → ∃ data, Opens aes s entry data ∧ rt.sha256Hex data = key

theorem run_allOpen (haes : aes.Correct) (s : EncryptedObjectStore) (hs : s.entries = ∅)
    (calls : List EncryptedCall) : AllOpen rt aes (runFrom (EncryptedObjectStore.step rt ed aes) s calls) := by
  refine runFrom_inv (AllOpen rt aes) ?_ s calls (by intro key entry h; simp [hs] at h)
  intro s call hopen
  rcases step_cases rt ed aes s call with hcall |
    ⟨data, nonce, associated, ciphertext, hassociated, hciphertext, hcall⟩
  · rw [hcall]
    exact hopen
  · rw [hcall]
    intro key entry hlookup
    by_cases hkey : key = rt.sha256Hex data
    · subst hkey
      rw [AList.lookup_insert] at hlookup
      obtain rfl := Option.some.inj hlookup
      exact ⟨data, ⟨associated, hassociated, haes _ _ _ _ _ hciphertext⟩, rfl⟩
    · rw [AList.lookup_insert_ne hkey] at hlookup
      exact hopen key entry hlookup

end Calls

section Redeem

-- The two documented ways to add a public key to a receipt.
def withKeyBytes (publicKey : Bytes) (entries : List (PyData × PyData)) : List (PyData × PyData) :=
  PyData.insert (py "_verification_key") (.bytes publicKey) entries

def withKeyHex (publicKey : Bytes) (entries : List (PyData × PyData)) : List (PyData × PyData) :=
  PyData.insert (py "verification_key_hex") (.str (bytesHex publicKey)) entries

def signatureFailed : PyExc :=
  .encryptedIntegrityError (py "receipt signature verification failed (fail-closed)")

-- A signed receipt is the record and, after it, the signature of its canonical bytes.
theorem issue_signed (s : EncryptedObjectStore) (key : Bytes) (hkey : s.signingKey = .bytes key)
    (digest ownerId : PyStr) (entry : Bytes × Bytes) (entries : List (PyData × PyData))
    (h : s.issue rt ed digest ownerId entry = .ok entries) :
    ∃ message, canonicalRecordBytes rt (PyData.ofFields (s.receiptFields rt digest ownerId entry)) = .ok message ∧
      entries = PyData.ofFields (s.receiptFields rt digest ownerId entry ++
        [(signatureField, .str (bytesHex (ed.sign key message)))]) := by
  simp only [EncryptedObjectStore.issue, hkey] at h
  obtain ⟨signature, hsignature, h⟩ := (bind_eq_ok _ _ _).mp h
  obtain rfl := Except.ok.inj h
  obtain ⟨-, key', message, hkey', -, hmessage, rfl⟩ := (signRecord_eq_ok rt ed _ _ _).mp hsignature
  obtain rfl := PyData.bytes.inj hkey'
  refine ⟨message, hmessage, ?_⟩
  rw [← Json.insert_append signatureField (.str (bytesHex (ed.sign key message))) _ (by
    simp only [EncryptedObjectStore.receiptFields, List.map_cons, List.map_nil]
    decide +kernel)]
  exact PyData.insert_ofFields signatureField (.str (bytesHex (ed.sign key message))) _

theorem store_eq_ok (s : EncryptedObjectStore) (data ownerId : PyData) (nonce : Bytes)
    (entries : List (PyData × PyData)) (h : (s.store rt ed aes data ownerId nonce).1 = .ok entries) :
    ∃ digest owner entry, (s.store rt ed aes data ownerId nonce).2.issue rt ed digest owner entry = .ok entries := by
  unfold EncryptedObjectStore.store at h ⊢
  split at h
  · next data owner howner =>
      simp only at h ⊢
      cases hentry : s.entryFor aes (rt.sha256Hex data) data nonce with
      | error e => simp [hentry] at h
      | ok result =>
          simp only [hentry] at h ⊢
          exact ⟨rt.sha256Hex data, owner, result.1, h⟩
  · cases h
  · cases h

-- What every signed receipt of a store says.
structure Issued (s : EncryptedObjectStore) (entries : List (PyData × PyData)) : Prop where
  keys : ∀ key ∈ requiredKeys, (PyData.get? (py key) entries).isSome = true
  storeId : PyData.get? (py "store_id") entries = some (.str s.storeId)
  encryption : PyData.get? (py "encryption") entries = some (.str encryptionStatus)
  signature : (PyData.get? signatureField entries).isSome = true

theorem issued_signed (s : EncryptedObjectStore) (digest ownerId : PyStr) (entry : Bytes × Bytes)
    (signature : PyStr) :
    Issued s (PyData.ofFields (s.receiptFields rt digest ownerId entry ++ [(signatureField, .str signature)])) where
  keys := by
    intro key hkey
    fin_cases hkey <;> rfl
  storeId := rfl
  encryption := rfl
  signature := rfl

-- Adding another key to the dict changes none of this.
theorem Issued.insert (s : EncryptedObjectStore) (entries : List (PyData × PyData)) (h : Issued s entries)
    (added : PyStr) (value : PyData)
    (hadded : ∀ key ∈ signatureField :: requiredKeys.map py, key ≠ added) :
    Issued s (PyData.insert added value entries) := by
  have hget : ∀ key ∈ signatureField :: requiredKeys.map py,
      PyData.get? key (PyData.insert added value entries) = PyData.get? key entries := fun key hkey =>
    PyData.get?_insert_of_ne added key value entries (hadded key hkey)
  have hrequired : ∀ key ∈ requiredKeys,
      PyData.get? (py key) (PyData.insert added value entries) = PyData.get? (py key) entries := fun key hkey =>
    hget _ (List.mem_cons_of_mem _ (List.mem_map_of_mem hkey))
  refine ⟨?_, ?_, ?_, ?_⟩
  · intro key hkey
    rw [hrequired key hkey]
    exact h.keys key hkey
  · rw [hrequired "store_id" (by decide)]
    exact h.storeId
  · rw [hrequired "encryption" (by decide)]
    exact h.encryption
  · rw [hget signatureField List.mem_cons_self]
    exact h.signature

-- Where the signature does not verify, nothing else of the store matters.
theorem retrieve_unverified (s : EncryptedObjectStore) (entries : List (PyData × PyData)) (h : Issued s entries)
    (key : Bytes) (hkey : publicKeyFor entries = .ok key)
    (hverify : verifyRecordSignature rt ed (.dict entries) (.bytes key) = false) :
    s.retrieve rt ed aes (.dict entries) = .error signatureFailed := by
  obtain ⟨signature, hsignature⟩ := Option.isSome_iff_exists.mp h.signature
  have hcheck : checkReceiptSignature rt ed entries = .error signatureFailed := by
    simp [checkReceiptSignature, hsignature, hkey, hverify, bind, Except.bind, signatureFailed]
  simp [EncryptedObjectStore.retrieve, (requireKeys_eq_ok entries .encryptedIntegrityError requiredKeys ()).mpr h.keys,
    field, h.storeId, h.encryption, PyData.isStr, hcheck, bind, Except.bind]

-- The receipt with the raw key in it is no JSON, so its signature is never good.
theorem verify_withKeyBytes (entries : List (PyData × PyData)) (publicKey : Bytes) :
    verifyRecordSignature rt ed (.dict (withKeyBytes publicKey entries)) (.bytes publicKey) = false := by
  rw [← Bool.not_eq_true, verifyRecordSignature_iff]
  rintro ⟨signatureHex, -, -, hcheck⟩
  obtain ⟨-, signature, message, -, hmessage, -⟩ := (checkSignature_eq_ok rt ed _ _ _).mp hcheck
  refine canonicalRecordBytes_of_bytes rt _ (py "_verification_key") publicKey message ?_ hmessage
  rw [PyData.get?_erase_of_ne _ _ _ (by decide +kernel), withKeyBytes, PyData.get?_insert_self]

section Hex

variable (s : EncryptedObjectStore) (key : Bytes) (digest ownerId : PyStr) (entry : Bytes × Bytes)
  (signature : PyStr)

theorem unsigned_issued :
    PyData.erase signatureField
        (PyData.ofFields (s.receiptFields rt digest ownerId entry ++ [(signatureField, .str signature)])) =
      PyData.ofFields (s.receiptFields rt digest ownerId entry) := rfl

theorem unsigned_withKeyHex :
    PyData.erase signatureField (withKeyHex key
        (PyData.ofFields (s.receiptFields rt digest ownerId entry ++ [(signatureField, .str signature)]))) =
      PyData.ofFields (s.receiptFields rt digest ownerId entry ++
        [(py "verification_key_hex", .str (bytesHex key))]) := rfl

theorem receiptFields_wf (value : PyStr) :
    Json.Wf (.obj (s.receiptFields rt digest ownerId entry)) ∧
      Json.Wf (.obj (s.receiptFields rt digest ownerId entry ++
        [(py "verification_key_hex", .str value)])) := by
  have hkeys : ((s.receiptFields rt digest ownerId entry ++
      [(py "verification_key_hex", Json.str value)]).map Prod.fst).Nodup := by
    simp only [EncryptedObjectStore.receiptFields, List.map_append, List.map_cons, List.map_nil]
    decide +kernel
  refine ⟨⟨?_, ?_⟩, hkeys, ?_⟩
  · rw [List.map_append] at hkeys
    exact hkeys.of_append_left
  · simp [EncryptedObjectStore.receiptFields, Json.Wf]
  · simp [EncryptedObjectStore.receiptFields, Json.Wf]

-- The key that the receipt names is among the bytes that are checked, and it was
-- not among those that were signed.
theorem verify_withKeyHex (message : Bytes)
    (hmessage : canonicalRecordBytes rt (PyData.ofFields (s.receiptFields rt digest ownerId entry)) = .ok message)
    (entries : List (PyData × PyData))
    (hentries : entries = PyData.ofFields (s.receiptFields rt digest ownerId entry ++
      [(signatureField, .str (bytesHex (ed.sign key message)))]))
    (hed : ed.AcceptsExactly key {m | canonicalRecordBytes rt (PyData.erase signatureField entries) = .ok m ∨
      canonicalRecordBytes rt (PyData.erase signatureField (withKeyHex (ed.publicKey key) entries)) = .ok m}) :
    verifyRecordSignature rt ed (.dict (withKeyHex (ed.publicKey key) entries)) (.bytes (ed.publicKey key)) =
      false := by
  rw [← Bool.not_eq_true, verifyRecordSignature_iff]
  rintro ⟨signatureHex, hget, -, hcheck⟩
  obtain ⟨-, signature, message', hhex, hmessage', hverify⟩ := (checkSignature_eq_ok rt ed _ _ _).mp hcheck
  have hsignature : signature = ed.sign key message := by
    have hfield : PyData.get? signatureField (withKeyHex (ed.publicKey key) entries) =
        some (.str (bytesHex (ed.sign key message))) := by
      rw [withKeyHex, PyData.get?_insert_of_ne _ _ _ _ (by decide +kernel), hentries]
      rfl
    rw [hfield, Option.some.injEq, PyData.str.injEq] at hget
    rw [← hget, fromHex_bytesHex] at hhex
    exact (Option.some.inj hhex).symm
  have hsame : message' = message := by
    refine (hed message (.inl ?_) message' (.inr hmessage')).mp (hsignature ▸ hverify)
    rw [hentries, unsigned_issued]
    exact hmessage
  rw [hentries, unsigned_withKeyHex, canonicalRecordBytes_ofFields, hsame] at hmessage'
  rw [canonicalRecordBytes_ofFields] at hmessage
  obtain ⟨hwf, hwf'⟩ := receiptFields_wf rt s digest ownerId entry (bytesHex (ed.publicKey key))
  have hnorm := canonical_injective rt _ _ hwf hwf' message hmessage hmessage'
  have hlength := ((Json.norm_obj_eq_iff _ _ hwf.1).mp hnorm).length_eq
  simp only [Json.normFields_eq, List.length_map, List.length_append, List.length_cons, List.length_nil] at hlength
  omega

end Hex

-- No signed receipt can be redeemed: with its public key added in either way, its
-- signature no longer fits.
theorem signed_receipt_refused (s : EncryptedObjectStore) (key : Bytes) (hkey : s.signingKey = .bytes key)
    (data ownerId : PyData) (nonce : Bytes) (entries : List (PyData × PyData))
    (hstore : (s.store rt ed aes data ownerId nonce).1 = .ok entries)
    (hed : ed.AcceptsExactly key {m | canonicalRecordBytes rt (PyData.erase signatureField entries) = .ok m ∨
      canonicalRecordBytes rt (PyData.erase signatureField (withKeyHex (ed.publicKey key) entries)) = .ok m})
    (later : List EncryptedCall) :
    let s' := runFrom (EncryptedObjectStore.step rt ed aes) (s.store rt ed aes data ownerId nonce).2 later
    s'.retrieve rt ed aes (.dict (withKeyBytes (ed.publicKey key) entries)) = .error signatureFailed ∧
      s'.retrieve rt ed aes (.dict (withKeyHex (ed.publicKey key) entries)) = .error signatureFailed := by
  intro s'
  have hcall : SameSetup s (s.store rt ed aes data ownerId nonce).2 :=
    run_setup rt ed aes s [.store data ownerId nonce]
  have hlater := run_setup rt ed aes (s.store rt ed aes data ownerId nonce).2 later
  obtain ⟨digest, owner, entry, hissue⟩ := store_eq_ok rt ed aes s data ownerId nonce entries hstore
  obtain ⟨message, hmessage, hentries⟩ :=
    issue_signed rt ed _ key (hcall.2.2.trans hkey) digest owner entry entries hissue
  have hissued : Issued s' entries := by
    have h := issued_signed rt (s.store rt ed aes data ownerId nonce).2 digest owner entry
      (bytesHex (ed.sign key message))
    rw [← hentries] at h
    exact ⟨h.keys, by rw [h.storeId, hlater.1], h.encryption, h.signature⟩
  have hlength := ed.publicKey_length key
  constructor
  · refine retrieve_unverified rt ed aes s' _ (hissued.insert s' entries _ _ (by decide +kernel))
      (ed.publicKey key) ?_ (verify_withKeyBytes rt ed entries (ed.publicKey key))
    simp [publicKeyFor, withKeyBytes, PyData.get?_insert_self, hlength]
  · refine retrieve_unverified rt ed aes s' _ (hissued.insert s' entries _ _ (by decide +kernel))
      (ed.publicKey key) ?_ (verify_withKeyHex rt ed _ key digest owner entry message hmessage entries hentries hed)
    have hraw : PyData.get? (py "_verification_key") (withKeyHex (ed.publicKey key) entries) = none := by
      rw [withKeyHex, PyData.get?_insert_of_ne _ _ _ _ (by decide +kernel), hentries]
      rfl
    have hhex : PyData.get? (py "verification_key_hex") (withKeyHex (ed.publicKey key) entries) =
        some (.str (bytesHex (ed.publicKey key))) := PyData.get?_insert_self _ _ _
    simp [publicKeyFor, hraw, hhex, bytesHex_length, hlength, fromHex_bytesHex, ofOption]

end Redeem

section OwnSignature

-- The receipt carries a signature that verifies under the store's own key.
def OwnSigned (s : EncryptedObjectStore) (entries : List (PyData × PyData)) : Prop :=
  ∃ key, s.signingKey = .bytes key ∧ key.length = 32 ∧
    verifyRecordSignature rt ed (.dict entries) (.bytes (ed.publicKey key)) = true

-- The public key is that of the store's own signing key.
def OwnKey (s : EncryptedObjectStore) (publicKey : Bytes) : Prop :=
  ∃ key, s.signingKey = .bytes key ∧ key.length = 32 ∧ publicKey = ed.publicKey key

-- The receipt has no signature, or one under a key that it brings along and that is not the store's.
def ForeignSigned (s : EncryptedObjectStore) (entries : List (PyData × PyData)) : Prop :=
  PyData.get? signatureField entries = none ∨
    ∃ publicKey, publicKeyFor entries = .ok publicKey ∧ ¬ OwnKey ed s publicKey ∧
      verifyRecordSignature rt ed (.dict entries) (.bytes publicKey) = true

-- Such a receipt for an object that the store holds.
def Counterfeit (s : EncryptedObjectStore) (entries : List (PyData × PyData)) : Prop :=
  (∃ key entry, Names rt s entries key entry) ∧ ForeignSigned rt ed s entries

-- What verifies under the store's own key verifies under no other key.
def Exclusive (s : EncryptedObjectStore) (entries : List (PyData × PyData)) : Prop :=
  OwnSigned rt ed s entries →
    ∀ publicKey, verifyRecordSignature rt ed (.dict entries) (.bytes publicKey) = true → OwnKey ed s publicKey

-- The check of `retrieve` is one under the own key exactly if the receipt brings that key.
theorem ownSigned_of_passes (s : EncryptedObjectStore) (entries : List (PyData × PyData))
    (hpasses : SignaturePasses rt ed entries) (hforeign : ¬ ForeignSigned rt ed s entries) :
    OwnSigned rt ed s entries := by
  rcases hpasses with hnone | ⟨publicKey, hbrought, hverify⟩
  · exact absurd (.inl hnone) hforeign
  · by_cases hown : OwnKey ed s publicKey
    · obtain ⟨key, hkey, hlength, rfl⟩ := hown
      exact ⟨key, hkey, hlength, hverify⟩
    · exact absurd (.inr ⟨publicKey, hbrought, hown, hverify⟩) hforeign

theorem not_ownSigned_of_foreign (s : EncryptedObjectStore) (entries : List (PyData × PyData))
    (hforeign : ForeignSigned rt ed s entries) (hexclusive : Exclusive rt ed s entries) :
    SignaturePasses rt ed entries ∧ ¬ OwnSigned rt ed s entries := by
  rcases hforeign with hnone | ⟨publicKey, hbrought, hother, hverify⟩
  · refine ⟨.inl hnone, ?_⟩
    rintro ⟨key, -, -, hown⟩
    obtain ⟨signatureHex, hget, -⟩ := (verifyRecordSignature_iff rt ed entries _).mp hown
    rw [hnone] at hget
    cases hget
  · exact ⟨.inr ⟨publicKey, hbrought, hverify⟩, fun hown => hother (hexclusive hown publicKey hverify)⟩

-- A dict that is no counterfeit is honoured only for the store's own signature, and no other
-- dict meets this.
theorem own_signature_required (haes : aes.Correct) (storeId masterKey optIn signingKey : PyData)
    (s₀ : EncryptedObjectStore)
    (hinit : EncryptedObjectStore.init storeId masterKey optIn signingKey = .ok s₀)
    (calls : List EncryptedCall) (entries : List (PyData × PyData)) :
    let s := runFrom (EncryptedObjectStore.step rt ed aes) s₀ calls
    let honoursOwn := ∀ data, s.retrieve rt ed aes (.dict entries) = .ok data → OwnSigned rt ed s entries
    (¬ Counterfeit rt ed s entries → honoursOwn) ∧
      (Exclusive rt ed s entries → honoursOwn → ¬ Counterfeit rt ed s entries) := by
  intro s honoursOwn
  constructor
  · intro hgenuine data hretrieve
    obtain ⟨hpasses, key, entry, hnames, -, -⟩ := (retrieve_eq_ok rt ed aes s entries data).mp hretrieve
    exact ownSigned_of_passes rt ed s entries hpasses fun hforeign => hgenuine ⟨⟨key, entry, hnames⟩, hforeign⟩
  · rintro hexclusive hrequired ⟨⟨key, entry, hnames⟩, hforeign⟩
    obtain ⟨hpasses, hnot⟩ := not_ownSigned_of_foreign rt ed s entries hforeign hexclusive
    have hempty := (init_entries storeId masterKey optIn signingKey s₀ hinit).1
    obtain ⟨data, hopens, hsame⟩ := run_allOpen rt ed aes haes s₀ hempty calls key entry hnames.held
    exact hnot (hrequired data
      ((retrieve_eq_ok rt ed aes s entries data).mpr ⟨hpasses, key, entry, hnames, hopens, hsame⟩))

end OwnSignature

section Sample

def ofText (text : String) : Bytes := (utf8Encode (py text)).getD []

-- The values that the hash, the cipher and the signature have on one object.
def sampleData : Bytes := ofText "payload"

def sampleNonce : Bytes :=
  [0, 1, 2, 3, 4, 5, 6, 7, 8, 9, 10, 11]

def sampleMaster : Bytes := List.replicate 32 0x6D

def sampleCiphertext : Bytes :=
  [54, 216, 8, 153, 40, 209, 213, 104, 30, 19, 201, 185, 37, 227, 95, 147, 120, 89, 144, 171, 4, 170, 49]

def sampleDigest : Digest :=
  ⟨[35, 159, 89, 237, 85, 231, 55, 199, 113, 71, 207, 85, 173, 12, 27, 3, 11, 109, 126, 231, 72, 167, 66,
    105, 82, 249, 184, 82, 213, 169, 53, 229], by decide⟩

def ciphertextDigest : Digest :=
  ⟨[27, 154, 76, 217, 162, 232, 240, 18, 194, 6, 246, 101, 109, 149, 231, 37, 7, 159, 141, 188, 62, 82,
    168, 18, 24, 63, 65, 0, 27, 58, 128, 199], rfl⟩

def sampleRuntime : Runtime where
  sha256 m :=
    if m = sampleData then sampleDigest
    else if m = sampleCiphertext then ciphertextDigest
    else zeroDigest
  printable _ := true
  nesting := 100

def sampleAes : AesGcm where
  encrypt key nonce data associated :=
    if key = sampleMaster ∧ nonce = sampleNonce ∧ data = sampleData ∧ associated = ofText "node-alpha" then
      .ok sampleCiphertext
    else .error .overflowError
  decrypt key nonce ciphertext associated :=
    if key = sampleMaster ∧ nonce = sampleNonce ∧ ciphertext = sampleCiphertext ∧
        associated = ofText "node-alpha" then
      some sampleData
    else none

theorem sampleAes_correct : sampleAes.Correct := by
  intro key nonce data associated ciphertext h
  simp only [sampleAes] at h
  split at h
  · next hargs =>
      obtain rfl := Except.ok.inj h
      obtain ⟨rfl, rfl, rfl, rfl⟩ := hargs
      simp [sampleAes]
  · cases h

def sampleKey : Bytes :=
  [0, 1, 2, 3, 4, 5, 6, 7, 8, 9, 10, 11, 12, 13, 14, 15, 16, 17, 18, 19, 20, 21, 22, 23, 24, 25, 26, 27,
    28, 29, 30, 31]

def samplePublic : Bytes :=
  [3, 161, 7, 191, 243, 206, 16, 190, 29, 112, 221, 24, 231, 75, 192, 153, 103, 228, 214, 48, 155, 165,
    13, 95, 29, 220, 134, 100, 18, 85, 49, 184]

def recordText : PyStr :=
  py "\x7b\"algorithm\":\"ED25519\",\"ciphertext_digest\":\"" ++ hexdigest ciphertextDigest ++
    py "\",\"encryption\":\"AES-256-GCM\",\"nonce\":\"" ++ bytesHex sampleNonce ++
    py "\",\"object_digest\":\"" ++ hexdigest sampleDigest ++
    py "\",\"owner_id\":\"node-beta\",\"store_id\":\"node-alpha\""

def sampleMessage : Bytes := (utf8Encode (recordText ++ py "\x7d")).getD []

-- The message with the public key in it.
def keyedMessage : Bytes :=
  (utf8Encode (recordText ++ py ",\"verification_key_hex\":\"" ++ bytesHex samplePublic ++ py "\"\x7d")).getD []

def sampleSignature : Bytes :=
  [127, 191, 18, 211, 192, 165, 5, 176, 143, 190, 27, 13, 253, 163, 22, 216, 210, 0, 48, 35, 219, 143,
    205, 61, 111, 105, 91, 29, 10, 29, 106, 91, 189, 55, 188, 198, 197, 248, 159, 70, 174, 76, 94, 93, 170,
    77, 204, 14, 249, 116, 173, 0, 70, 13, 251, 66, 4, 207, 87, 140, 89, 175, 104, 15]

def keyedSignature : Bytes :=
  [80, 181, 19, 98, 172, 148, 153, 179, 95, 212, 212, 183, 140, 122, 56, 61, 102, 160, 74, 196, 20, 35,
    90, 60, 236, 42, 71, 232, 4, 148, 239, 47, 164, 184, 81, 66, 234, 20, 8, 58, 10, 152, 207, 241, 235,
    40, 165, 172, 211, 86, 200, 106, 3, 211, 213, 200, 208, 84, 53, 242, 244, 81, 214, 6]

def sampleEd : Ed25519 where
  publicKey key := if key = sampleKey then samplePublic else List.replicate 32 0
  sign key message :=
    if key = sampleKey ∧ message = sampleMessage then sampleSignature
    else if key = sampleKey ∧ message = keyedMessage then keyedSignature
    else List.replicate 64 0
  verify publicKey signature message :=
    publicKey = samplePublic ∧
      (signature = sampleSignature ∧ message = sampleMessage ∨ signature = keyedSignature ∧ message = keyedMessage)
  publicKey_length key := by
    split
    · decide +kernel
    · rfl
  sign_length key message := by
    split
    · decide +kernel
    · split
      · decide +kernel
      · rfl

def sampleStore : EncryptedObjectStore := ⟨py "node-alpha", sampleMaster, .bytes sampleKey, ∅⟩

-- `store(b"payload", owner_id="node-beta")`.
def sampleCall : Except PyExc (List (PyData × PyData)) × EncryptedObjectStore :=
  sampleStore.store sampleRuntime sampleEd sampleAes (.bytes sampleData) (.str (py "node-beta")) sampleNonce

def sampleReceipt : List (PyData × PyData) := sampleCall.1.toOption.getD []

theorem sampleCall_ok : sampleCall.1 = .ok sampleReceipt := by
  have hok : sampleCall.1.toOption.isSome = true := by decide +kernel
  unfold sampleReceipt
  cases hcall : sampleCall.1 with
  | ok entries => rfl
  | error e => rw [hcall] at hok; cases hok

theorem sample_not_redeemed :
    sampleCall.1.toOption.isSome = true ∧
      sampleCall.2.retrieve sampleRuntime sampleEd sampleAes (.dict (withKeyBytes samplePublic sampleReceipt)) ≠
        .ok sampleData ∧
      sampleCall.2.retrieve sampleRuntime sampleEd sampleAes (.dict (withKeyHex samplePublic sampleReceipt)) ≠
        .ok sampleData := by
  decide +kernel

theorem signed_receipt_refused_sample :
    let s' := runFrom (EncryptedObjectStore.step sampleRuntime sampleEd sampleAes) sampleCall.2
      [.store (.bytes sampleData) (.str (py "node-gamma")) sampleNonce]
    let publicKey := sampleEd.publicKey sampleKey
    s'.retrieve sampleRuntime sampleEd sampleAes (.dict (withKeyBytes publicKey sampleReceipt)) =
        .error signatureFailed ∧
      s'.retrieve sampleRuntime sampleEd sampleAes (.dict (withKeyHex publicKey sampleReceipt)) =
        .error signatureFailed := by
  have hsigned : canonicalRecordBytes sampleRuntime (PyData.erase signatureField sampleReceipt) =
      .ok sampleMessage := by decide +kernel
  have hkeyed : canonicalRecordBytes sampleRuntime (PyData.erase signatureField
      (withKeyHex (sampleEd.publicKey sampleKey) sampleReceipt)) = .ok keyedMessage := by decide +kernel
  have hexact : ∀ m ∈ [sampleMessage, keyedMessage], ∀ m' ∈ [sampleMessage, keyedMessage],
      sampleEd.verify (sampleEd.publicKey sampleKey) (sampleEd.sign sampleKey m) m' = true ↔ m' = m := by
    decide +kernel
  have hmem : ∀ m, (canonicalRecordBytes sampleRuntime (PyData.erase signatureField sampleReceipt) = .ok m ∨
      canonicalRecordBytes sampleRuntime (PyData.erase signatureField
        (withKeyHex (sampleEd.publicKey sampleKey) sampleReceipt)) = .ok m) →
      m ∈ [sampleMessage, keyedMessage] := by
    rw [hsigned, hkeyed]
    rintro m (h | h)
    · simp [Except.ok.inj h]
    · simp [Except.ok.inj h]
  have hexactly : sampleEd.AcceptsExactly sampleKey
      {m | canonicalRecordBytes sampleRuntime (PyData.erase signatureField sampleReceipt) = .ok m ∨
        canonicalRecordBytes sampleRuntime (PyData.erase signatureField
          (withKeyHex (sampleEd.publicKey sampleKey) sampleReceipt)) = .ok m} :=
    fun m hm m' hm' => hexact m (hmem m hm) m' (hmem m' hm')
  unfold sampleCall
  exact signed_receipt_refused sampleRuntime sampleEd sampleAes sampleStore sampleKey rfl (.bytes sampleData)
    (.str (py "node-beta")) sampleNonce sampleReceipt sampleCall_ok hexactly
    [.store (.bytes sampleData) (.str (py "node-gamma")) sampleNonce]

-- The receipt with its signature removed.
theorem stripped_receipt_retrieved :
    sampleCall.2.retrieve sampleRuntime sampleEd sampleAes
        (.dict (PyData.erase signatureField sampleReceipt)) = .ok sampleData ∧
      ¬ OwnSigned sampleRuntime sampleEd sampleCall.2 (PyData.erase signatureField sampleReceipt) := by
  refine ⟨by decide +kernel, ?_⟩
  rintro ⟨key, -, -, hverify⟩
  rw [verifyRecordSignature_iff] at hverify
  obtain ⟨signatureHex, hget, -⟩ := hverify
  have hnone : (PyData.get? signatureField (PyData.erase signatureField sampleReceipt)).isSome = false := by
    decide +kernel
  rw [hget] at hnone
  cases hnone

-- A receipt that names the store's public key and that its owner has signed anew with the
-- store's key.
def resignedReceipt : List (PyData × PyData) :=
  PyData.insert signatureField (.str (bytesHex keyedSignature))
    (withKeyHex samplePublic (PyData.erase signatureField sampleReceipt))

theorem own_signature_required_sample :
    OwnSigned sampleRuntime sampleEd sampleCall.2 resignedReceipt ∧
      ¬ ∀ data, sampleCall.2.retrieve sampleRuntime sampleEd sampleAes
          (.dict (PyData.erase signatureField sampleReceipt)) = .ok data →
        OwnSigned sampleRuntime sampleEd sampleCall.2 (PyData.erase signatureField sampleReceipt) := by
  have hsetup : SameSetup sampleStore sampleCall.2 :=
    run_setup sampleRuntime sampleEd sampleAes sampleStore
      [.store (.bytes sampleData) (.str (py "node-beta")) sampleNonce]
  have hkey : sampleCall.2.signingKey = .bytes sampleKey := hsetup.2.2
  have hown : OwnKey sampleEd sampleCall.2 samplePublic := ⟨sampleKey, hkey, rfl, by decide +kernel⟩
  have hrequired := fun entries => own_signature_required sampleRuntime sampleEd sampleAes sampleAes_correct
    (.str (py "node-alpha")) (.bytes sampleMaster) (.bool true) (.bytes sampleKey) sampleStore (by rfl)
    [.store (.bytes sampleData) (.str (py "node-beta")) sampleNonce] entries
  constructor
  · refine (hrequired resignedReceipt).1 ?_ sampleData (by decide +kernel)
    rintro ⟨-, hnone | ⟨publicKey, hbrought, hother, -⟩⟩
    · have hsome : (PyData.get? signatureField resignedReceipt).isSome = true := by decide +kernel
      rw [hnone] at hsome
      cases hsome
    · have hpublic : publicKeyFor resignedReceipt = .ok samplePublic := by decide +kernel
      rw [hpublic] at hbrought
      obtain rfl := Except.ok.inj hbrought
      exact hother hown
  · have hnone : PyData.get? signatureField (PyData.erase signatureField sampleReceipt) = none := by decide +kernel
    have hexclusive : Exclusive sampleRuntime sampleEd sampleCall.2 (PyData.erase signatureField sampleReceipt) := by
      rintro - publicKey hverify
      obtain ⟨signatureHex, hget, -⟩ := (verifyRecordSignature_iff sampleRuntime sampleEd _ _).mp hverify
      rw [hnone] at hget
      cases hget
    intro hhonours
    refine (hrequired _).2 hexclusive hhonours ⟨?_, .inl hnone⟩
    obtain ⟨-, key, entry, hnames, -⟩ := (retrieve_eq_ok sampleRuntime sampleEd sampleAes sampleCall.2
      (PyData.erase signatureField sampleReceipt) sampleData).mp (by decide +kernel)
    exact ⟨key, entry, hnames⟩

end Sample

end V91Core.Store
