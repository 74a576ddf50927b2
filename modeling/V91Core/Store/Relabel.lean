import V91Core.Content.Framing
import V91Core.Store.Contents

namespace V91Core.Store

open V91Core.Python
open V91Core.Effect
open V91Core.Content

variable (rt : Runtime)

section Text

-- What stands between the owner and the encryption status.
def PeerObjectStore.separator (s : PeerObjectStore) : PyStr :=
  [cp '|'] ++ s.storeId ++ [cp '|'] ++ receiptAlgorithm ++ [cp '|']

def PeerObjectStore.receiptText (s : PeerObjectStore) (digest ownerId encryption : PyStr) : PyStr :=
  digest ++ ([cp '|'] ++ (ownerId ++ s.separator ++ encryption))

theorem joinParts_eq_ok (parts : List PyData) (text : PyStr) :
    joinParts parts = .ok text ↔ ∃ texts, parts = texts.map .str ∧ text = Json.joinWith [cp '|'] texts := by
  induction parts generalizing text with
  | nil =>
      simp only [joinParts, Except.ok.injEq, eq_comm (a := ([] : List PyData)), List.map_eq_nil_iff]
      constructor
      · rintro rfl
        exact ⟨[], rfl, rfl⟩
      · rintro ⟨texts, rfl, rfl⟩
        rfl
  | cons part parts ih =>
      constructor
      · intro h
        cases part with
        | str first =>
            cases parts with
            | nil =>
                rw [joinParts] at h
                exact ⟨[first], rfl, (Except.ok.inj h).symm⟩
            | cons next parts =>
                rw [joinParts] at h
                · obtain ⟨rest, hrest, rfl⟩ : ∃ rest, joinParts (next :: parts) = .ok rest ∧
                      first ++ [cp '|'] ++ rest = text := by
                    cases hrest : joinParts (next :: parts) with
                    | error e => rw [hrest] at h; cases h
                    | ok rest => rw [hrest] at h; exact ⟨rest, rfl, Except.ok.inj h⟩
                  obtain ⟨texts, htexts, rfl⟩ := (ih rest).mp hrest
                  refine ⟨first :: texts, by rw [htexts]; rfl, ?_⟩
                  cases texts with
                  | nil => cases htexts
                  | cons t texts => rfl
                · simp
        | _ => cases h
      · rintro ⟨texts, htexts, rfl⟩
        cases texts with
        | nil => cases htexts
        | cons first texts =>
            obtain ⟨rfl, rfl⟩ := List.cons.inj htexts
            cases texts with
            | nil => rfl
            | cons t texts =>
                have hrest := (ih (Json.joinWith [cp '|'] (t :: texts))).mpr ⟨t :: texts, rfl, rfl⟩
                simp only [List.map_cons] at hrest
                simp only [List.map_cons, joinParts, hrest, Except.map, Json.joinWith]

-- The bytes that the MAC is over, for a receipt of this store.
theorem canonicalReceiptBytes_eq_ok (s : PeerObjectStore) (entries : List (PyData × PyData)) (digest : PyStr)
    (hdigest : field entries "object_digest" = .str digest) (hstore : field entries "store_id" = .str s.storeId)
    (halgorithm : field entries "algorithm" = .str receiptAlgorithm) (message : Bytes) :
    canonicalReceiptBytes entries = .ok message ↔
      ∃ ownerId encryption, field entries "owner_id" = .str ownerId ∧
        field entries "encryption" = .str encryption ∧
        utf8Encode (s.receiptText digest ownerId encryption) = some message := by
  have htext : ∀ ownerId encryption,
      Json.joinWith [cp '|'] [digest, ownerId, s.storeId, receiptAlgorithm, encryption] =
        s.receiptText digest ownerId encryption := by
    intro ownerId encryption
    simp [Json.joinWith, PeerObjectStore.receiptText, PeerObjectStore.separator]
  simp only [canonicalReceiptBytes, hdigest, hstore, halgorithm, bind_eq_ok, joinParts_eq_ok, encodeUtf8_eq_ok]
  constructor
  · rintro ⟨text, ⟨texts, hparts, rfl⟩, hbytes⟩
    rcases texts with _ | ⟨d, _ | ⟨o, _ | ⟨st, _ | ⟨a, _ | ⟨e, _ | ⟨x, rest⟩⟩⟩⟩⟩⟩ <;>
      simp only [List.map_cons, List.map_nil, List.cons.injEq, PyData.str.injEq, reduceCtorEq, and_false,
        and_true] at hparts
    obtain ⟨rfl, howner, rfl, rfl, hencryption⟩ := hparts
    exact ⟨o, e, howner, hencryption, by rw [← htext]; exact hbytes⟩
  · rintro ⟨ownerId, encryption, howner, hencryption, hbytes⟩
    refine ⟨_, ⟨[digest, ownerId, s.storeId, receiptAlgorithm, encryption], ?_, rfl⟩, ?_⟩
    · rw [howner, hencryption]
      rfl
    · rw [htext]
      exact hbytes

theorem separator_last (s : PeerObjectStore) : s.separator.getLast? = some (cp '|') := by
  rw [PeerObjectStore.separator]
  exact List.getLast?_concat

-- The text of a receipt whose owner is delimited has only one reading.
theorem receiptText_injective (s : PeerObjectStore) (digest ownerId digest' ownerId' encryption' : PyStr)
    (hlength : digest.length = digest'.length) (hdelimits : Delimits s.separator ownerId)
    (h : s.receiptText digest ownerId peerEncryption = s.receiptText digest' ownerId' encryption') :
    digest' = digest ∧ ownerId' = ownerId ∧ encryption' = peerEncryption := by
  obtain ⟨rfl, hrest⟩ := List.append_inj h hlength
  have hsplit := List.append_cancel_left hrest
  have htail : cp '|' ∉ peerEncryption := by decide +kernel
  exact ⟨rfl, hdelimits.split s.separator (cp '|') (separator_last s) ownerId peerEncryption ownerId' encryption'
    htail hsplit⟩

end Text

section Runs

variable (s₀ : PeerObjectStore) (calls : List PeerCall)

-- The byte strings that the store has computed a MAC of.
def maced : Set Bytes := {message | ∃ r ∈ receiptsOf rt s₀ calls, canonicalReceiptBytes r.1 = .ok message}

-- If its MAC is valid, then the store made it.
def Unforged (entries : List (PyData × PyData)) : Prop :=
  ∀ message, canonicalReceiptBytes entries = .ok message →
    (field entries "receipt_mac").toStr rt = .ok (rt.hmacHex s₀.secret message) → message ∈ maced rt s₀ calls

def labels : List String := ["object_digest", "owner_id", "store_id", "algorithm", "encryption"]

def SameLabels (entries receipt : List (PyData × PyData)) : Prop :=
  ∀ key ∈ labels, field entries key = field receipt key

-- A store call that returns a receipt: there is no other object under its digest,
-- and the receipt can be encoded.
structure Receipted (s : PeerObjectStore) (data : Bytes) (ownerId : PyStr) : Prop where
  owner : strip ownerId ≠ []
  free : ∀ existing, s.objects.lookup (rt.sha256Hex data) = some existing → existing = data
  encodable : ∀ c ∈ ownerId ++ s.storeId, c.isSurrogate = false

theorem peer_step_cases (s : PeerObjectStore) (call : PeerCall) :
    s.step rt call = s ∨ ∃ data, s.step rt call = keep rt s data := by
  cases call with
  | isAvailable value => exact .inl rfl
  | retrieve receipt => exact .inl rfl
  | store data ownerId =>
      simp only [PeerObjectStore.step, PeerObjectStore.store]
      split
      · split
        · split
          · exact .inl rfl
          · exact .inr ⟨_, rfl⟩
        · exact .inr ⟨_, rfl⟩
      · exact .inl rfl
      · exact .inl rfl

theorem peer_setup : (peerAfter rt s₀ calls).storeId = s₀.storeId ∧ (peerAfter rt s₀ calls).secret = s₀.secret := by
  refine runFrom_inv (fun s => s.storeId = s₀.storeId ∧ s.secret = s₀.secret) ?_ s₀ calls ⟨rfl, rfl⟩
  intro s call h
  rcases peer_step_cases rt s call with hcall | ⟨data, hcall⟩
  · rw [hcall]
    exact h
  · rw [hcall]
    exact h

-- Some object stays under a digest that has one.
theorem stays_held (s : PeerObjectStore) (digest : PyStr)
    (h : ∃ data, rt.sha256Hex data = digest ∧ s.objects.lookup digest = some data) :
    ∃ data, rt.sha256Hex data = digest ∧ (peerAfter rt s calls).objects.lookup digest = some data := by
  refine runFrom_inv (fun s => ∃ data, rt.sha256Hex data = digest ∧ s.objects.lookup digest = some data) ?_ s
    calls h
  intro s call ⟨data, hdigest, hlookup⟩
  rcases peer_step_cases rt s call with hcall | ⟨other, hcall⟩
  · rw [hcall]
    exact ⟨data, hdigest, hlookup⟩
  · rw [hcall, keep]
    by_cases hsame : digest = rt.sha256Hex other
    · exact ⟨other, hsame.symm, by rw [hsame, AList.lookup_insert]⟩
    · exact ⟨data, hdigest, by rw [AList.lookup_insert_ne hsame]; exact hlookup⟩

theorem issue_message (s : PeerObjectStore) (digest ownerId : PyStr) (message : Bytes) :
    canonicalReceiptBytes (PyData.ofFields (s.receiptFields digest ownerId)) = .ok message ↔
      utf8Encode (s.receiptText digest ownerId peerEncryption) = some message := by
  rw [canonicalReceiptBytes_eq_ok s _ digest rfl rfl rfl]
  constructor
  · rintro ⟨owner, encryption, howner, hencryption, h⟩
    obtain rfl : ownerId = owner := PyData.str.inj howner
    obtain rfl : peerEncryption = encryption := PyData.str.inj hencryption
    exact h
  · exact fun h => ⟨ownerId, peerEncryption, rfl, rfl, h⟩

-- Only the owner and the store can keep a receipt from being encoded.
theorem receiptText_encodable (s : PeerObjectStore) (d : Digest) (ownerId : PyStr) :
    (utf8Encode (s.receiptText (hexdigest d) ownerId peerEncryption)).isSome = true ↔
      ∀ c ∈ ownerId ++ s.storeId, c.isSurrogate = false := by
  have hdigest := ascii_encodable (hexdigest d) (isAscii_hexdigest d)
  have hbar := ascii_encodable [cp '|'] (by decide)
  have halgorithm := ascii_encodable receiptAlgorithm (by decide +kernel)
  have hencryption := ascii_encodable peerEncryption (by decide +kernel)
  rw [utf8Encode_isSome, PeerObjectStore.receiptText, PeerObjectStore.separator]
  simp only [List.forall_mem_append]
  constructor
  · rintro ⟨-, -, ⟨howner, ⟨⟨⟨⟨-, hstore⟩, -⟩, -⟩, -⟩⟩, -⟩
    exact ⟨howner, hstore⟩
  · rintro ⟨howner, hstore⟩
    exact ⟨hdigest, hbar, ⟨howner, ⟨⟨⟨⟨hbar, hstore⟩, hbar⟩, halgorithm⟩, hbar⟩⟩, hencryption⟩

theorem nonBlank?_eq_some (value : PyData) (text : PyStr) :
    value.nonBlank? = some text ↔ value = .str text ∧ strip text ≠ [] := by
  cases value with
  | str s =>
      by_cases hs : strip s = []
      · simp only [PyData.nonBlank?, if_pos hs, reduceCtorEq, PyData.str.injEq, false_iff, not_and, not_not]
        rintro rfl
        exact hs
      · simp only [PyData.nonBlank?, if_neg hs, Option.some.injEq, PyData.str.injEq]
        constructor
        · rintro rfl
          exact ⟨rfl, hs⟩
        · exact fun h => h.1
  | _ => simp [PyData.nonBlank?]

theorem issued_iff (s : PeerObjectStore) (call : PeerCall) (receipt : List (PyData × PyData)) (data : Bytes) :
    issued rt s call = some (receipt, data) ↔ ∃ ownerId message, call = .store (.bytes data) (.str ownerId) ∧
      Receipted rt s data ownerId ∧
      utf8Encode (s.receiptText (rt.sha256Hex data) ownerId peerEncryption) = some message ∧
      receipt = PyData.ofFields (s.receiptFields (rt.sha256Hex data) ownerId ++
        [(py "receipt_mac", .str (rt.hmacHex s.secret message))]) := by
  constructor
  · intro h
    cases call with
    | isAvailable value => cases h
    | retrieve receipt => cases h
    | store value owner =>
        cases value with
        | bytes bs =>
            obtain ⟨receipt', hok, hpair⟩ := Option.map_eq_some_iff.mp h
            obtain ⟨rfl, rfl⟩ := Prod.mk.inj hpair
            cases howner : owner.nonBlank? with
            | none =>
                simp only [PeerObjectStore.store, howner] at hok
                cases hok
            | some ownerId =>
                have hfree : ∀ existing, s.objects.lookup (rt.sha256Hex bs) = some existing → existing = bs := by
                  intro existing hlookup
                  by_contra hne
                  simp only [PeerObjectStore.store, howner, hlookup, ne_eq, hne, not_false_eq_true, if_true] at hok
                  cases hok
                rw [store_kept rt s bs owner ownerId howner hfree] at hok
                cases hissue : (keep rt s bs).issue rt (rt.sha256Hex bs) ownerId with
                | error e => rw [hissue] at hok; cases hok
                | ok r =>
                    rw [hissue] at hok
                    obtain rfl := Option.some.inj hok
                    obtain ⟨message, hmessage, hr⟩ := (bind_eq_ok _ _ _).mp hissue
                    have htext := (issue_message (keep rt s bs) _ ownerId message).mp hmessage
                    obtain ⟨rfl, hblank⟩ := (nonBlank?_eq_some owner ownerId).mp howner
                    refine ⟨ownerId, message, rfl, ⟨hblank, hfree, ?_⟩, htext, (Except.ok.inj hr).symm⟩
                    exact (receiptText_encodable s (rt.sha256 bs) ownerId).mp (Option.isSome_of_eq_some htext)
        | _ => cases h
  · rintro ⟨ownerId, message, rfl, hreceipted, hmessage, rfl⟩
    have howner := (nonBlank?_eq_some (.str ownerId) ownerId).mpr ⟨rfl, hreceipted.owner⟩
    have hissue : (keep rt s data).issue rt (rt.sha256Hex data) ownerId =
        .ok (PyData.ofFields (s.receiptFields (rt.sha256Hex data) ownerId ++
          [(py "receipt_mac", .str (rt.hmacHex s.secret message))])) := by
      refine (bind_eq_ok _ _ _).mpr ⟨message, ?_, rfl⟩
      exact (issue_message s (rt.sha256Hex data) ownerId message).mpr hmessage
    simp only [issued, store_kept rt s data (.str ownerId) ownerId howner hreceipted.free, hissue,
      Except.toOption, Option.map_some]

end Runs

section Relabel

variable (s₀ : PeerObjectStore) (calls : List PeerCall)

-- Every receipt that a call returns has a delimited owner.
def OwnersDelimited : Prop :=
  EachStep (PeerObjectStore.step rt)
    (fun s call => ∀ data ownerId, call = .store (.bytes data) (.str ownerId) → Receipted rt s data ownerId →
      Delimits s.separator ownerId) s₀ calls

-- The calls leave alone what a receipt says about the store.
theorem setup_after (before : List PeerCall) :
    (peerAfter rt s₀ before).separator = s₀.separator ∧
      (peerAfter rt s₀ before).receiptText = s₀.receiptText ∧
      (peerAfter rt s₀ before).receiptFields = s₀.receiptFields ∧
      (peerAfter rt s₀ before).secret = s₀.secret := by
  obtain ⟨hid, hsecret⟩ := peer_setup rt s₀ before
  have hseparator : (peerAfter rt s₀ before).separator = s₀.separator := by
    rw [PeerObjectStore.separator, PeerObjectStore.separator, hid]
  refine ⟨hseparator, ?_, ?_, hsecret⟩
  · funext digest ownerId encryption
    rw [PeerObjectStore.receiptText, PeerObjectStore.receiptText, hseparator]
  · funext digest ownerId
    rw [PeerObjectStore.receiptFields, PeerObjectStore.receiptFields, hid]

-- The receipts of a run, by the call that returned them.
theorem mem_receiptsOf (receipt : List (PyData × PyData)) (data : Bytes) :
    (receipt, data) ∈ receiptsOf rt s₀ calls ↔
      ∃ before ownerId message, before ++ [.store (.bytes data) (.str ownerId)] <+: calls ∧
        Receipted rt (peerAfter rt s₀ before) data ownerId ∧
        utf8Encode (s₀.receiptText (rt.sha256Hex data) ownerId peerEncryption) = some message ∧
        receipt = PyData.ofFields (s₀.receiptFields (rt.sha256Hex data) ownerId ++
          [(py "receipt_mac", .str (rt.hmacHex s₀.secret message))]) := by
  rw [receiptsOf, mem_collect_iff]
  constructor
  · rintro ⟨before, call, hbefore, h⟩
    obtain ⟨-, htext, hfields, hsecret⟩ := setup_after rt s₀ before
    obtain ⟨ownerId, message, rfl, hreceipted, hmessage, hreceipt⟩ :=
      (issued_iff rt (peerAfter rt s₀ before) call receipt data).mp h
    rw [htext] at hmessage
    rw [hfields, hsecret] at hreceipt
    exact ⟨before, ownerId, message, hbefore, hreceipted, hmessage, hreceipt⟩
  · rintro ⟨before, ownerId, message, hbefore, hreceipted, hmessage, hreceipt⟩
    obtain ⟨-, htext, hfields, hsecret⟩ := setup_after rt s₀ before
    refine ⟨before, _, hbefore, (issued_iff rt (peerAfter rt s₀ before) _ receipt data).mpr ?_⟩
    rw [htext, hfields, hsecret]
    exact ⟨ownerId, message, rfl, hreceipted, hmessage, hreceipt⟩

-- With delimited owners the MAC fixes what it is over.
theorem labels_of_accepted (howners : OwnersDelimited rt s₀ calls) (entries : List (PyData × PyData)) (data : Bytes)
    (hunforged : Unforged rt s₀ calls entries)
    (haccepted : Accepted rt (peerAfter rt s₀ calls) entries data) :
    ∃ r ∈ receiptsOf rt s₀ calls, SameLabels entries r.1 := by
  obtain ⟨hid, hsecret⟩ := peer_setup rt s₀ calls
  obtain ⟨message, hmessage, hmac⟩ := haccepted.mac
  rw [hsecret] at hmac
  obtain ⟨⟨receipt, object⟩, hr, hsigned⟩ := hunforged message hmessage hmac
  obtain ⟨before, owner, message', hbefore, hreceipted, -, rfl⟩ := (mem_receiptsOf rt s₀ calls receipt object).mp hr
  have hstore : field entries "store_id" = .str s₀.storeId := by
    rw [haccepted.storeId, hid]
  obtain ⟨ownerId, encryption, howner, hencryption, htext⟩ := (canonicalReceiptBytes_eq_ok s₀ entries
    (rt.sha256Hex data) haccepted.digest hstore haccepted.algorithm message).mp hmessage
  obtain ⟨owner', encryption', howner', hencryption', htext'⟩ := (canonicalReceiptBytes_eq_ok s₀ _
    (rt.sha256Hex object) rfl rfl rfl message).mp hsigned
  obtain rfl : owner = owner' := PyData.str.inj howner'
  obtain rfl : peerEncryption = encryption' := PyData.str.inj hencryption'
  have hdelimits : Delimits s₀.separator owner := by
    have hstep := (eachStep_iff_split _ s₀ calls).mp howners before _ hbefore object owner rfl hreceipted
    rwa [← (setup_after rt s₀ before).1]
  obtain ⟨hdigest, rfl, rfl⟩ := receiptText_injective s₀ _ owner _ ownerId encryption
    (by rw [Runtime.sha256Hex, Runtime.sha256Hex, hexdigest_length, hexdigest_length]) hdelimits
    (utf8Encode_injective _ _ message htext' htext)
  refine ⟨_, hr, ?_⟩
  intro key hkey
  fin_cases hkey
  · exact haccepted.digest.trans (congrArg PyData.str hdigest)
  · exact howner
  · exact hstore
  · exact haccepted.algorithm
  · exact hencryption

-- The receipt with a part of its owner moved into the encryption status.
def relabelled (digest before after mac : PyStr) : List (PyData × PyData) :=
  PyData.ofFields [(py "object_digest", .str digest), (py "owner_id", .str before), (py "store_id", .str s₀.storeId),
    (py "algorithm", .str receiptAlgorithm), (py "encryption", .str (after ++ peerEncryption)),
    (py "receipt_mac", .str mac)]

-- An owner with the separator in it has a second reading, which is accepted too.
theorem relabelled_accepted (data : Bytes) (first : List PeerCall) (ownerId before after : PyStr) (message : Bytes)
    (hfirst : first ++ [.store (.bytes data) (.str ownerId)] <+: calls)
    (hreceipted : Receipted rt (peerAfter rt s₀ first) data ownerId)
    (hmessage : utf8Encode (s₀.receiptText (rt.sha256Hex data) ownerId peerEncryption) = some message)
    (hsplit : ownerId ++ s₀.separator = before ++ s₀.separator ++ after) (hafter : after ≠ []) :
    let entries := relabelled s₀ (rt.sha256Hex data) before after (rt.hmacHex s₀.secret message)
    Unforged rt s₀ calls entries ∧ (∃ object, Accepted rt (peerAfter rt s₀ calls) entries object) ∧
      ∀ r ∈ receiptsOf rt s₀ calls, ¬ SameLabels entries r.1 := by
  intro entries
  obtain ⟨hid, hsecret⟩ := peer_setup rt s₀ calls
  have hissued := (mem_receiptsOf rt s₀ calls _ data).mpr ⟨first, ownerId, message, hfirst, hreceipted, hmessage, rfl⟩
  have hsigned := (issue_message s₀ (rt.sha256Hex data) ownerId message).mpr hmessage
  -- Both readings are the same text.
  have hcanonical : canonicalReceiptBytes entries = .ok message := by
    refine (canonicalReceiptBytes_eq_ok s₀ entries (rt.sha256Hex data) rfl rfl rfl message).mpr
      ⟨before, after ++ peerEncryption, rfl, rfl, ?_⟩
    rw [← hmessage, PeerObjectStore.receiptText, PeerObjectStore.receiptText, hsplit, List.append_assoc _ after]
  obtain ⟨object, hdigest, hheld⟩ : ∃ object, rt.sha256Hex object = rt.sha256Hex data ∧
      (peerAfter rt s₀ calls).objects.lookup (rt.sha256Hex data) = some object := by
    obtain ⟨later, rfl⟩ := hfirst
    rw [peerAfter, runFrom_append]
    refine stays_held rt later _ (rt.sha256Hex data) ⟨data, rfl, ?_⟩
    have howner := (nonBlank?_eq_some (.str ownerId) ownerId).mpr ⟨rfl, hreceipted.owner⟩
    have hstep : peerAfter rt s₀ (first ++ [.store (.bytes data) (.str ownerId)]) =
        keep rt (peerAfter rt s₀ first) data := by
      rw [peerAfter, runFrom_concat]
      exact congrArg Prod.snd (store_kept rt (peerAfter rt s₀ first) data (.str ownerId) ownerId howner hreceipted.free)
    change (peerAfter rt s₀ (first ++ [.store (.bytes data) (.str ownerId)])).objects.lookup _ = _
    rw [hstep, keep, AList.lookup_insert]
  refine ⟨?_, ⟨object, ?_, ?_, rfl, ⟨message, hcanonical, ?_⟩, ?_, ?_⟩, ?_⟩
  · intro message' hmessage' _
    obtain rfl : message = message' := Except.ok.inj (hcanonical.symm.trans hmessage')
    exact ⟨_, hissued, hsigned⟩
  · intro key hkey
    fin_cases hkey <;> rfl
  · rw [hid]
    rfl
  · rw [hsecret]
    rfl
  · rw [hdigest]
    rfl
  · rw [hdigest]
    exact hheld
  · rintro ⟨receipt, object'⟩ hr hsame
    obtain ⟨_, _, _, -, -, -, rfl⟩ := (mem_receiptsOf rt s₀ calls receipt object').mp hr
    have hencryption : PyData.str (after ++ peerEncryption) = .str peerEncryption := hsame "encryption" (by decide)
    exact hafter (List.append_left_eq_self.mp (PyData.str.inj hencryption))

-- The receipts of a store cannot be relabelled exactly when the separator ends
-- each owner that it has issued a receipt for.
theorem receipts_not_relabelled_iff :
    (∀ entries data, Unforged rt s₀ calls entries → (peerAfter rt s₀ calls).retrieve rt (.dict entries) = .ok data →
        ∃ r ∈ receiptsOf rt s₀ calls, SameLabels entries r.1) ↔
      OwnersDelimited rt s₀ calls := by
  constructor
  · intro hlabels
    refine (eachStep_iff_split _ s₀ calls).mpr ?_
    rintro first call hfirst data ownerId rfl hreceipted before after hsplit
    by_contra hafter
    obtain ⟨hseparator, htext, -, -⟩ := setup_after rt s₀ first
    obtain ⟨message, hmessage⟩ : ∃ message,
        utf8Encode (s₀.receiptText (rt.sha256Hex data) ownerId peerEncryption) = some message := by
      have hencodable := (receiptText_encodable _ (rt.sha256 data) ownerId).mpr hreceipted.encodable
      change (utf8Encode ((peerAfter rt s₀ first).receiptText _ ownerId _)).isSome = true at hencodable
      rw [htext] at hencodable
      exact Option.isSome_iff_exists.mp hencodable
    have hsplit' : ownerId ++ s₀.separator = before ++ s₀.separator ++ after := by
      rw [← hseparator]
      exact hsplit
    obtain ⟨hunforged, ⟨object, haccepted⟩, hnone⟩ :=
      relabelled_accepted rt s₀ calls data first ownerId before after message hfirst hreceipted hmessage hsplit' hafter
    obtain ⟨r, hr, hsame⟩ := hlabels _ object hunforged ((peer_retrieve_eq_ok rt _ _ object).mpr haccepted)
    exact hnone r hr hsame
  · intro howners entries data hunforged hretrieve
    exact labels_of_accepted rt s₀ calls howners entries data hunforged
      ((peer_retrieve_eq_ok rt _ entries data).mp hretrieve)

end Relabel

section Sample

-- The receipt for the barred owner, read as one for "alice".
def aliceReceipt : List (PyData × PyData) :=
  relabelled peerStore (hexdigest payloadDigest) (py "alice") (py "X|node-alpha|HMAC-SHA256|") (hexdigest payloadMac)

theorem alice_receipt_accepted :
    (peerAfter peerRuntime peerStore peerCalls).retrieve peerRuntime (.dict aliceReceipt) = .ok payload ∧
      Unforged peerRuntime peerStore peerCalls aliceReceipt ∧
      ∀ r ∈ receiptsOf peerRuntime peerStore peerCalls, ¬ SameLabels aliceReceipt r.1 := by
  have hreceipted : Receipted peerRuntime peerStore payload barredOwner := by
    refine ⟨by decide +kernel, ?_, ?_⟩
    · intro existing hlookup
      cases hlookup
    · rw [← utf8Encode_isSome]
      decide +kernel
  have hmac : peerRuntime.hmacHex peerStore.secret (macInput payloadDigest barredOwner) = hexdigest payloadMac := by
    decide +kernel
  have hdigest : peerRuntime.sha256Hex payload = hexdigest payloadDigest := by decide +kernel
  have hsecond := relabelled_accepted peerRuntime peerStore peerCalls payload [] barredOwner (py "alice")
    (py "X|node-alpha|HMAC-SHA256|") (macInput payloadDigest barredOwner) ⟨_, rfl⟩ hreceipted (by decide +kernel)
    (by decide +kernel) (by decide +kernel)
  rw [hmac, hdigest] at hsecond
  exact ⟨by decide +kernel, hsecond.1, hsecond.2.2⟩

end Sample

end V91Core.Store
