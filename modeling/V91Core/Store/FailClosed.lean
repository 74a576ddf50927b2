import V91Core.Store.Relabel

namespace V91Core.Store

open V91Core.Python

variable (rt : Runtime)

-- An exception of the store's own classes.
def IsPeerStoreError (e : PyExc) : Prop :=
  ∃ msg, e = .peerStoreError msg ∨ e = .receiptValidationError msg ∨ e = .peerIntegrityError msg

section Stages

variable (s : PeerObjectStore) (entries : List (PyData × PyData))

-- The object of this digest, or an exception of the store.
def FailsClosed (digest : PyData) (result : Except PyExc Bytes) : Prop :=
  (∃ data, result = .ok data ∧ digest = .str (rt.sha256Hex data)) ∨ ∃ e, result = .error e ∧ IsPeerStoreError e

theorem failsClosed_validation (digest : PyData) (msg : PyStr) :
    FailsClosed rt digest (.error (.receiptValidationError msg)) :=
  .inr ⟨_, rfl, msg, .inr (.inl rfl)⟩

theorem failsClosed_error_iff (digest : PyData) (e : PyExc) :
    FailsClosed rt digest (.error e) ↔ IsPeerStoreError e := by
  simp [FailsClosed]

theorem requireKeys_cases (missing : PyStr → PyExc) (keys : List String) :
    ((∀ key ∈ keys, (PyData.get? (py key) entries).isSome = true) ∧ requireKeys entries missing keys = .ok ()) ∨
      (¬ ∀ key ∈ keys, (PyData.get? (py key) entries).isSome = true) ∧
        ∃ msg, requireKeys entries missing keys = .error (missing msg) := by
  induction keys with
  | nil => exact .inl ⟨by simp, rfl⟩
  | cons key keys ih =>
      cases hget : PyData.get? (py key) entries with
      | none => exact .inr ⟨by simp [hget], _, by rw [requireKeys, hget]⟩
      | some value =>
          rcases ih with ⟨hall, hok⟩ | ⟨hmissing, msg, herror⟩
          · refine .inl ⟨List.forall_mem_cons.mpr ⟨by rw [hget]; rfl, hall⟩, ?_⟩
            rw [requireKeys, hget]
            exact hok
          · refine .inr ⟨fun hall => hmissing (List.forall_mem_cons.mp hall).2, msg, ?_⟩
            rw [requireKeys, hget]
            exact herror

-- `hmac.compare_digest` of a digest and a text that may be anything.
theorem compareHex_str (d : Digest) (text : PyStr) :
    PeerObjectStore.compareHex (hexdigest d) (.str text) =
      if isAscii text = true then .ok (decide (hexdigest d = text)) else .error .typeError := by
  rw [PeerObjectStore.compareHex, compareDigest, isAscii_hexdigest, Bool.true_and]
  split
  · rfl
  · rfl

-- The last part fails closed unless it compares a digest that is not ASCII.
theorem readObject_failsClosed_iff (digest : PyStr) :
    FailsClosed rt (.str digest) (s.readObject rt (.str digest)) ↔
      isAscii digest = true ∨ s.objects.lookup digest = none := by
  have hkey : (PyData.str digest).lookupKey = .ok (some digest) := rfl
  cases hlookup : s.objects.lookup digest with
  | none =>
      refine iff_of_true ?_ (.inr rfl)
      simp only [PeerObjectStore.readObject, hkey, bind, Except.bind, Option.bind_some, hlookup, PyData.toStr]
      exact failsClosed_validation rt _ _
  | some data =>
      by_cases hascii : isAscii digest = true
      · refine iff_of_true ?_ (.inl hascii)
        simp only [PeerObjectStore.readObject, hkey, bind, Except.bind, Option.bind_some, hlookup, PyData.toStr,
          Runtime.sha256Hex, compareHex_str, if_pos hascii]
        by_cases hsame : hexdigest (rt.sha256 data) = digest
        · rw [if_pos (decide_eq_true hsame)]
          exact .inl ⟨data, rfl, congrArg PyData.str hsame.symm⟩
        · rw [if_neg (by simpa using hsame)]
          exact .inr ⟨_, rfl, _, .inr (.inr rfl)⟩
      · refine iff_of_false ?_ (by simp [hascii])
        simp only [PeerObjectStore.readObject, hkey, bind, Except.bind, Option.bind_some, hlookup,
          Runtime.sha256Hex, compareHex_str, if_neg hascii]
        rw [failsClosed_error_iff]
        simp [IsPeerStoreError]

-- The text under the MAC cannot be built from a field that is no string or that has a
-- lone surrogate, and what is raised then is no exception of the store.
theorem canonicalReceiptBytes_error (e : PyExc) (h : canonicalReceiptBytes entries = .error e) :
    ¬ IsPeerStoreError e := by
  have hjoin : ∀ (parts : List PyData) (e : PyExc), joinParts parts = .error e → e = .typeError := by
    intro parts
    induction parts with
    | nil => intro e h; cases h
    | cons part parts ih =>
        intro e h
        cases part with
        | str text =>
            cases parts with
            | nil => cases h
            | cons next parts =>
                rw [joinParts] at h
                · exact ih e (PyData.map_eq_error _ _ _ h)
                · simp
        | _ => exact (Except.error.inj h).symm
  unfold canonicalReceiptBytes at h
  cases htext : joinParts [field entries "object_digest", field entries "owner_id", field entries "store_id",
      field entries "algorithm", field entries "encryption"] with
  | error e' =>
      rw [htext] at h
      obtain rfl := Except.error.inj h
      rw [hjoin _ _ htext]
      simp [IsPeerStoreError]
  | ok text =>
      rw [htext] at h
      have hencode : encodeUtf8 text = .error e := h
      unfold encodeUtf8 at hencode
      cases hbytes : utf8Encode text with
      | some bs =>
          rw [hbytes] at hencode
          cases hencode
      | none =>
          rw [hbytes] at hencode
          obtain rfl := Except.error.inj hencode
          simp [IsPeerStoreError]

-- The texts of a receipt of this store whose bytes can be built.
structure Joinable (digest ownerId encryption : PyStr) : Prop where
  hdigest : field entries "object_digest" = .str digest
  howner : field entries "owner_id" = .str ownerId
  hencryption : field entries "encryption" = .str encryption
  encodable : ∀ c ∈ digest ++ ownerId ++ s.storeId ++ encryption, c.isSurrogate = false

theorem canonicalReceiptBytes_isOk_iff (hstore : field entries "store_id" = .str s.storeId)
    (halgorithm : field entries "algorithm" = .str receiptAlgorithm) :
    (∃ message, canonicalReceiptBytes entries = .ok message) ↔
      ∃ digest ownerId encryption, Joinable s entries digest ownerId encryption := by
  have hencodable : ∀ digest ownerId encryption, (utf8Encode (s.receiptText digest ownerId encryption)).isSome = true ↔
      ∀ c ∈ digest ++ ownerId ++ s.storeId ++ encryption, c.isSurrogate = false := by
    intro digest ownerId encryption
    have hbar : ∀ c ∈ [cp '|'], c.isSurrogate = false := (utf8Encode_isSome [cp '|']).mp (by decide)
    have halgorithm : ∀ c ∈ receiptAlgorithm, c.isSurrogate = false :=
      (utf8Encode_isSome receiptAlgorithm).mp (by decide +kernel)
    rw [utf8Encode_isSome, PeerObjectStore.receiptText, PeerObjectStore.separator]
    simp only [List.forall_mem_append]
    constructor
    · rintro ⟨hdigest, -, ⟨howner, ⟨⟨⟨-, hid⟩, -⟩, -⟩, -⟩, hencryption⟩
      exact ⟨⟨⟨hdigest, howner⟩, hid⟩, hencryption⟩
    · rintro ⟨⟨⟨hdigest, howner⟩, hid⟩, hencryption⟩
      exact ⟨hdigest, hbar, ⟨howner, ⟨⟨⟨hbar, hid⟩, hbar⟩, halgorithm⟩, hbar⟩, hencryption⟩
  constructor
  · rintro ⟨message, h⟩
    obtain ⟨digest, hdigest⟩ : ∃ digest, field entries "object_digest" = .str digest := by
      obtain ⟨text, hjoin, -⟩ := (bind_eq_ok _ _ _).mp h
      obtain ⟨texts, hparts, -⟩ := (joinParts_eq_ok _ text).mp hjoin
      cases texts with
      | nil => cases hparts
      | cons digest texts => exact ⟨digest, (List.cons.inj hparts).1⟩
    obtain ⟨ownerId, encryption, howner, hencryption, hbytes⟩ :=
      (canonicalReceiptBytes_eq_ok s entries digest hdigest hstore halgorithm message).mp h
    exact ⟨digest, ownerId, encryption, hdigest, howner, hencryption,
      (hencodable digest ownerId encryption).mp (Option.isSome_of_eq_some hbytes)⟩
  · rintro ⟨digest, ownerId, encryption, h⟩
    obtain ⟨message, hbytes⟩ := Option.isSome_iff_exists.mp ((hencodable digest ownerId encryption).mpr h.encodable)
    exact ⟨message, (canonicalReceiptBytes_eq_ok s entries digest h.hdigest hstore halgorithm message).mpr
      ⟨ownerId, encryption, h.howner, h.hencryption, hbytes⟩⟩

end Stages

section Receipts

variable (s : PeerObjectStore) (receipt : Json.Dict)

def entriesOf (receipt : Json.Dict) : List (PyData × PyData) := PyData.ofFields receipt.fields

theorem field_entriesOf (key : String) :
    field (entriesOf receipt) key = .ofJson ((Json.lookup (py key) receipt.fields).getD .null) := by
  rw [field, entriesOf, PyData.get?_ofFields]
  cases Json.lookup (py key) receipt.fields <;> rfl

-- What `str(value)` raises for JSON data is no exception of the store.
theorem toStr_error (j : Json) (e : PyExc) (h : (PyData.ofJson j).toStr rt = .error e) : ¬ IsPeerStoreError e := by
  have hrepr : (∃ msg, e = .valueError msg) ∨ e = .recursionError := by
    cases j with
    | str text => cases h
    | _ => exact PyData.reprAt_error rt rt.nesting _ e h
  rcases hrepr with ⟨msg, rfl⟩ | rfl
  · simp [IsPeerStoreError]
  · simp [IsPeerStoreError]

-- The receipt has all keys and the identifier of this store.
structure Addressed : Prop where
  keys : ∀ key ∈ PeerObjectStore.peerKeys, (PyData.get? (py key) (entriesOf receipt)).isSome = true
  storeId : field (entriesOf receipt) "store_id" = .str s.storeId

-- Such a receipt gets through the steps of `retrieve` that may raise something else.
structure Handled : Prop where
  -- The algorithm is shown in the message when it is another one.
  algorithm : field (entriesOf receipt) "algorithm" ≠ .str receiptAlgorithm →
    Json.Fits true rt.nesting ((Json.lookup (py "algorithm") receipt.fields).getD .null)
  joinable : field (entriesOf receipt) "algorithm" = .str receiptAlgorithm →
    ∃ digest ownerId encryption, Joinable s (entriesOf receipt) digest ownerId encryption
  mac : field (entriesOf receipt) "algorithm" = .str receiptAlgorithm →
    ∃ mac, (field (entriesOf receipt) "receipt_mac").toStr rt = .ok mac ∧ isAscii mac = true
  -- With a valid MAC the digest is looked up and compared.
  digest : ∀ digest message, field (entriesOf receipt) "algorithm" = .str receiptAlgorithm →
    field (entriesOf receipt) "object_digest" = .str digest →
    canonicalReceiptBytes (entriesOf receipt) = .ok message →
    (field (entriesOf receipt) "receipt_mac").toStr rt = .ok (rt.hmacHex s.secret message) →
    isAscii digest = true ∨ s.objects.lookup digest = none

-- `retrieve` refuses a receipt that is not addressed to this store.
theorem retrieve_not_addressed (h : ¬ Addressed s receipt) :
    ∃ msg, s.retrieve rt (.dict (entriesOf receipt)) = .error (.receiptValidationError msg) := by
  rcases requireKeys_cases (entriesOf receipt) .receiptValidationError PeerObjectStore.peerKeys with
    ⟨hkeys, hok⟩ | ⟨-, msg, herror⟩
  · have hstore : (field (entriesOf receipt) "store_id").isStr s.storeId = false := by
      rw [← Bool.not_eq_true, isStr_iff]
      exact fun hstore => h ⟨hkeys, hstore⟩
    simp only [PeerObjectStore.retrieve, hok, hstore, bind, Except.bind, Bool.not_false, if_true]
    exact ⟨_, rfl⟩
  · refine ⟨msg, ?_⟩
    simp only [PeerObjectStore.retrieve, herror, bind, Except.bind]

theorem retrieve_other_algorithm (h : Addressed s receipt)
    (halgorithm : field (entriesOf receipt) "algorithm" ≠ .str receiptAlgorithm) :
    s.retrieve rt (.dict (entriesOf receipt)) =
      match (field (entriesOf receipt) "algorithm").repr rt with
      | .ok text => .error (.receiptValidationError (py "unsupported receipt algorithm: " ++ text))
      | .error e => .error e := by
  have hok := (requireKeys_eq_ok (entriesOf receipt) .receiptValidationError _ ()).mpr h.keys
  have hstore := (isStr_iff s.storeId _).mpr h.storeId
  have hother : (field (entriesOf receipt) "algorithm").isStr receiptAlgorithm = false := by
    rw [← Bool.not_eq_true, isStr_iff]
    exact halgorithm
  simp only [PeerObjectStore.retrieve, hok, hstore, hother, bind, Except.bind, Bool.not_true, Bool.not_false,
    Bool.false_eq_true, if_false, if_true]
  cases (field (entriesOf receipt) "algorithm").repr rt <;> rfl

-- With the store's algorithm the MAC is checked, then the object is read.
theorem retrieve_own_algorithm (h : Addressed s receipt)
    (halgorithm : field (entriesOf receipt) "algorithm" = .str receiptAlgorithm) :
    s.retrieve rt (.dict (entriesOf receipt)) = (do
      let message ← canonicalReceiptBytes (entriesOf receipt)
      let mac ← (field (entriesOf receipt) "receipt_mac").toStr rt
      let same ← PeerObjectStore.compareHex (rt.hmacHex s.secret message) (.str mac)
      if !same then .error (.receiptValidationError (py "receipt HMAC mismatch (fail-closed)"))
      s.readObject rt (field (entriesOf receipt) "object_digest")) := by
  have hok := (requireKeys_eq_ok (entriesOf receipt) .receiptValidationError _ ()).mpr h.keys
  have hstore := (isStr_iff s.storeId _).mpr h.storeId
  have hsame := (isStr_iff receiptAlgorithm _).mpr halgorithm
  simp only [PeerObjectStore.retrieve, hok, hstore, hsame, bind, Except.bind, Bool.not_true,
    Bool.false_eq_true, if_false]

theorem retrieve_failsClosed_own (h : Addressed s receipt)
    (halgorithm : field (entriesOf receipt) "algorithm" = .str receiptAlgorithm) :
    FailsClosed rt (field (entriesOf receipt) "object_digest") (s.retrieve rt (.dict (entriesOf receipt))) ↔
      Handled rt s receipt := by
  rw [retrieve_own_algorithm rt s receipt h halgorithm]
  cases hmessage : canonicalReceiptBytes (entriesOf receipt) with
  | error e =>
      refine iff_of_false ?_ fun hhandled => ?_
      · exact fun hfails => canonicalReceiptBytes_error _ e hmessage ((failsClosed_error_iff rt _ e).mp hfails)
      · obtain ⟨message, hok⟩ := (canonicalReceiptBytes_isOk_iff s _ h.storeId halgorithm).mpr
          (hhandled.joinable halgorithm)
        rw [hmessage] at hok
        cases hok
  | ok message =>
      have hjoinable := (canonicalReceiptBytes_isOk_iff s _ h.storeId halgorithm).mp ⟨message, hmessage⟩
      obtain ⟨digest, ownerId, encryption, hjoin⟩ := hjoinable
      cases hmac : (field (entriesOf receipt) "receipt_mac").toStr rt with
      | error e =>
          refine iff_of_false ?_ fun hhandled => ?_
          · have hfield := field_entriesOf receipt "receipt_mac"
            rw [hfield] at hmac
            exact fun hfails => toStr_error rt _ e hmac ((failsClosed_error_iff rt _ e).mp hfails)
          · obtain ⟨mac, hok, -⟩ := hhandled.mac halgorithm
            rw [hmac] at hok
            cases hok
      | ok mac =>
          simp only [bind, Except.bind, Runtime.hmacHex, compareHex_str]
          by_cases hascii : isAscii mac = true
          · rw [if_pos hascii]
            by_cases hsame : hexdigest (rt.hmac s.secret message) = mac
            · simp only [hsame, decide_true, Bool.not_true, Bool.false_eq_true, if_false]
              rw [hjoin.hdigest, readObject_failsClosed_iff]
              constructor
              · intro hread
                refine ⟨fun hother => absurd halgorithm hother, fun _ => ⟨digest, ownerId, encryption, hjoin⟩,
                  fun _ => ⟨mac, hmac, hascii⟩, fun digest' message' _ hdigest' _ _ => ?_⟩
                rw [hjoin.hdigest] at hdigest'
                rw [← PyData.str.inj hdigest']
                exact hread
              · intro hhandled
                refine hhandled.digest digest message halgorithm hjoin.hdigest hmessage ?_
                rw [hmac, Runtime.hmacHex, hsame]
            · refine iff_of_true ?_ ?_
              · simp only [hsame, decide_false, Bool.not_false, if_true]
                exact failsClosed_validation rt _ _
              · refine ⟨fun hother => absurd halgorithm hother, fun _ => ⟨digest, ownerId, encryption, hjoin⟩,
                  fun _ => ⟨mac, hmac, hascii⟩, fun _ message' _ _ hmessage' hmac' => ?_⟩
                obtain rfl := Except.ok.inj (hmessage.symm.trans hmessage')
                exact absurd (Except.ok.inj (hmac.symm.trans hmac')).symm hsame
          · rw [if_neg hascii]
            refine iff_of_false ?_ fun hhandled => ?_
            · intro hfails
              have herror := (failsClosed_error_iff rt _ _).mp hfails
              simp [IsPeerStoreError] at herror
            · obtain ⟨mac', hok, hascii'⟩ := hhandled.mac halgorithm
              obtain rfl := Except.ok.inj (hmac.symm.trans hok)
              exact hascii hascii'

-- `retrieve` fails closed on the receipts that get through its steps, and on no others.
theorem retrieve_failsClosed_iff :
    FailsClosed rt (field (entriesOf receipt) "object_digest") (s.retrieve rt (.dict (entriesOf receipt))) ∧
        s.step rt (.retrieve (.dict (entriesOf receipt))) = s ↔
      (Addressed s receipt → Handled rt s receipt) := by
  have hstep : s.step rt (.retrieve (.dict (entriesOf receipt))) = s := rfl
  rw [and_iff_left hstep]
  by_cases haddressed : Addressed s receipt
  · rw [forall_prop_of_true haddressed]
    by_cases halgorithm : field (entriesOf receipt) "algorithm" = .str receiptAlgorithm
    · exact retrieve_failsClosed_own rt s receipt haddressed halgorithm
    · rw [retrieve_other_algorithm rt s receipt haddressed halgorithm]
      have hshown : (∃ text, (field (entriesOf receipt) "algorithm").repr rt = .ok text) ↔
          Json.Fits true rt.nesting ((Json.lookup (py "algorithm") receipt.fields).getD .null) := by
        rw [field_entriesOf, PyData.repr, PyData.reprAt_isOk_iff]
      cases hrepr : (field (entriesOf receipt) "algorithm").repr rt with
      | ok text =>
          refine iff_of_true (failsClosed_validation rt _ _) ?_
          exact ⟨fun _ => hshown.mp ⟨text, hrepr⟩, fun h => absurd h halgorithm, fun h => absurd h halgorithm,
            fun _ _ h => absurd h halgorithm⟩
      | error e =>
          refine iff_of_false ?_ fun hhandled => ?_
          · rw [failsClosed_error_iff]
            rw [field_entriesOf] at hrepr
            rcases PyData.reprAt_error rt rt.nesting _ e hrepr with ⟨msg, rfl⟩ | rfl
            · simp [IsPeerStoreError]
            · simp [IsPeerStoreError]
          · obtain ⟨text, hok⟩ := hshown.mpr (hhandled.algorithm halgorithm)
            rw [hrepr] at hok
            cases hok
  · obtain ⟨msg, herror⟩ := retrieve_not_addressed rt s receipt haddressed
    rw [herror]
    exact iff_of_true (failsClosed_validation rt _ _) fun h => absurd h haddressed

end Receipts

section Sample

-- A receipt whose owner is a number.
def numberedReceipt : Json.Dict where
  fields := [(py "object_digest", .str (hexdigest payloadDigest)), (py "owner_id", .int 5),
    (py "store_id", .str (py "node-alpha")), (py "algorithm", .str receiptAlgorithm),
    (py "encryption", .str peerEncryption), (py "receipt_mac", .str (hexdigest payloadMac))]
  wf := by
    have hkeys : (PeerObjectStore.peerKeys.map fun key => py key).Nodup := by decide +kernel
    exact ⟨hkeys, trivial, trivial, trivial, trivial, trivial, trivial, trivial⟩

theorem numbered_receipt_raises :
    peerStore.retrieve peerRuntime (.dict (entriesOf numberedReceipt)) = .error .typeError ∧
      ¬ IsPeerStoreError .typeError := by
  refine ⟨by rfl, ?_⟩
  simp [IsPeerStoreError]

end Sample

end V91Core.Store
