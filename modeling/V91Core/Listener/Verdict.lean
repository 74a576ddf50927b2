import V91Core.Json.Chars
import V91Core.Json.Loads
import V91Core.Listener.Inbox

namespace V91Core.Listener

open V91Core.Python V91Core.Effect

-- The text can be written in UTF-8.
def Encodable (text : PyStr) : Prop := ∀ c ∈ text, c.isSurrogate = false

section Texts

theorem encodable_ascii (text : PyStr) (h : isAscii text = true) : Encodable text := ascii_encodable text h

theorem isSurrogate_cp (c : Char) : (cp c).isSurrogate = false := by
  have hval : c.toNat = c.val.toNat := rfl
  rcases c.valid with h | h
  · exact isSurrogate_chr _ (by omega) (by omega)
  · exact isSurrogate_chr _ (by omega) (by omega)

theorem encodable_py (s : String) : Encodable (py s) := by
  intro c hc
  obtain ⟨d, -, rfl⟩ := List.mem_map.mp hc
  exact isSurrogate_cp d

@[simp] theorem encodable_append (s t : PyStr) : Encodable (s ++ t) ↔ Encodable s ∧ Encodable t :=
  List.forall_mem_append

@[simp] theorem encodable_cons (c : CodePoint) (s : PyStr) : Encodable (c :: s) ↔ c.isSurrogate = false ∧ Encodable s :=
  List.forall_mem_cons

theorem encodable_natText (n : Nat) : Encodable (natText n) := by
  intro c hc
  obtain ⟨d, -, rfl⟩ := List.mem_map.mp hc
  exact isSurrogate_cp d

theorem encodable_hexdigest (d : Digest) : Encodable (hexdigest d) := by
  intro c hc
  refine isSurrogate_of_ascii c ?_
  have hchar := hexdigest_chars d c hc
  simp only [isHexChar, CodePoint.isDigit, Bool.or_eq_true, Bool.and_eq_true, decide_eq_true_eq] at hchar
  omega

theorem encodable_finite (x : Float) (d : Decimal) (h : exactDecimal x = some d) : Encodable (finiteRepr x d) := by
  have hencode : Json.encode dataStyle 0 (.float x) = .ok (finiteRepr x d) := by
    rw [Json.encode, Json.floatText, h]
    rfl
  exact Json.encode_ascii_chars _ isSurrogate_of_ascii dataStyle rfl 0 (.float x) _ hencode

theorem encodable_reprFloat (x : Float) : Encodable (Json.reprFloat x) := by
  unfold Json.reprFloat
  split
  · next d hd => exact encodable_finite x d hd
  · split <;> exact encodable_py _

theorem encodable_padZeros (width : Nat) (s : PyStr) (h : Encodable s) : Encodable (padZeros width s) := by
  refine (encodable_append _ _).mpr ⟨fun c hc => ?_, h⟩
  rw [(List.mem_replicate.mp hc).2]
  exact isSurrogate_cp '0'

theorem encodable_formatFixed (places : Nat) (x : Float) : Encodable (formatFixed places x) := by
  have hsigned : ∀ (neg : Bool) (text : PyStr), Encodable text → Encodable (if neg then cp '-' :: text else text) := by
    intro neg text h
    cases neg with
    | false => exact h
    | true => exact (encodable_cons _ _).mpr ⟨isSurrogate_cp '-', h⟩
  unfold formatFixed
  split
  · next d hd =>
      refine hsigned d.neg _ ?_
      have hwhole := encodable_natText (d.scaled places / 10 ^ places)
      split
      · exact hwhole
      · refine (encodable_append _ _).mpr ⟨hwhole, (encodable_cons _ _).mpr ⟨isSurrogate_cp '.', ?_⟩⟩
        exact encodable_padZeros _ _ (encodable_natText _)
  · split <;> exact encodable_py _

theorem encodable_hexText (width n : Nat) : Encodable (Json.hexText width n) := by
  intro c hc
  obtain ⟨i, -, rfl⟩ := List.mem_map.mp hc
  have hall : ∀ k : Fin 16, (hexChar k.val).isSurrogate = false := by decide
  exact hall ⟨_, Nat.mod_lt _ (by decide)⟩

theorem encodable_reprChar (printable : CodePoint → Bool) (quote c : CodePoint) (h : c.isSurrogate = false) :
    Encodable (Json.reprChar printable quote c) := by
  have hescape : ∀ (d : Char) (text : PyStr), Encodable text → Encodable ([cp '\\', cp d] ++ text) := fun d text ht =>
    (encodable_append _ _).mpr ⟨by simp [Encodable, isSurrogate_cp], ht⟩
  have hself : Encodable [cp '\\', c] := by simp [Encodable, isSurrogate_cp, h]
  have halone : Encodable [c] := by simp [Encodable, h]
  unfold Json.reprChar
  split_ifs
  · exact hself
  · exact hescape 't' [] (by simp [Encodable])
  · exact hescape 'n' [] (by simp [Encodable])
  · exact hescape 'r' [] (by simp [Encodable])
  · exact hescape 'x' _ (encodable_hexText _ _)
  · exact halone
  · exact hescape 'x' _ (encodable_hexText _ _)
  · exact hescape 'u' _ (encodable_hexText _ _)
  · exact hescape 'U' _ (encodable_hexText _ _)

theorem encodable_reprStr (printable : CodePoint → Bool) (s : PyStr) (h : Encodable s) :
    Encodable (Json.reprStr printable s) := by
  have hquote : ∀ b : Prop, [Decidable b] → (if b then cp '"' else cp '\'').isSurrogate = false := by
    intro b _
    split <;> exact isSurrogate_cp _
  unfold Json.reprStr
  refine (encodable_cons _ _).mpr ⟨hquote _, (encodable_append _ _).mpr ⟨fun d hd => ?_, ?_⟩⟩
  · obtain ⟨c, hc, hd⟩ := List.mem_flatMap.mp hd
    exact encodable_reprChar printable _ c (h c hc) d hd
  · exact (encodable_cons _ _).mpr ⟨hquote _, by simp [Encodable]⟩

theorem encodable_joinWith (sep : PyStr) (hsep : Encodable sep) (texts : List PyStr) (h : ∀ t ∈ texts, Encodable t) :
    Encodable (Json.joinWith sep texts) :=
  (Json.joinWith_chars _ sep hsep texts).mpr h

theorem reprItems_eq (printable : CodePoint → Bool) (items : List Json) :
    Json.reprItems printable items = items.map (Json.repr printable) := by
  induction items with
  | nil => rfl
  | cons j items ih => rw [Json.reprItems, ih, List.map_cons]

theorem reprFields_eq (printable : CodePoint → Bool) (fields : List (PyStr × Json)) : Json.reprFields printable fields =
    fields.map fun f => Json.reprStr printable f.1 ++ [cp ':', cp ' '] ++ Json.repr printable f.2 := by
  induction fields with
  | nil => rfl
  | cons f fields ih => rw [Json.reprFields, ih, List.map_cons]

theorem encodable_repr (printable : CodePoint → Bool) (j : Json) (h : j.AllChars fun c => c.isSurrogate = false) :
    Encodable (Json.repr printable j) := by
  have hsep : Encodable [cp ',', cp ' '] := encodable_py ", "
  have hwrap : ∀ (a b : Char) (text : PyStr), Encodable text → Encodable (cp a :: (text ++ [cp b])) :=
    fun a b text ht => by
    simp only [encodable_cons, encodable_append, isSurrogate_cp, ht, true_and]
    simp [Encodable]
  induction j using Json.ind with
  | null => exact encodable_py _
  | bool b => cases b <;> exact encodable_py _
  | int n =>
      rw [Json.repr, intText]
      split
      · exact (encodable_cons _ _).mpr ⟨isSurrogate_cp '-', encodable_natText _⟩
      · exact encodable_natText _
  | float x => exact encodable_reprFloat x
  | str s => exact encodable_reprStr printable s h
  | arr items ih =>
      rw [Json.AllChars, Json.allCharsItems_iff] at h
      refine hwrap '[' ']' _ (encodable_joinWith _ hsep _ ?_)
      rw [reprItems_eq]
      intro text htext
      obtain ⟨j, hj, rfl⟩ := List.mem_map.mp htext
      exact ih j hj (h j hj)
  | obj fields ih =>
      rw [Json.AllChars, Json.allCharsFields_iff] at h
      refine hwrap '{' '}' _ (encodable_joinWith _ hsep _ ?_)
      rw [reprFields_eq]
      intro text htext
      obtain ⟨f, hf, rfl⟩ := List.mem_map.mp htext
      simp only [encodable_append]
      exact ⟨⟨encodable_reprStr printable f.1 (h f hf).1, encodable_py ": "⟩, ih f hf (h f hf).2⟩

end Texts

variable (cfg : Config) (key : Bytes)

-- A value that can be written at this depth, in UTF-8.
structure Clean (limit : Nat) (j : Json) : Prop where
  fits : Json.Fits true limit j
  chars : j.AllChars fun c => c.isSurrogate = false

section Checks

variable {cfg key}

theorem canonicalBytes_isOk_iff (rt : Runtime) (j : Json) :
    (∃ bs, canonicalBytes rt j = .ok bs) ↔ Clean rt.nesting j := by
  rw [canonicalBytes, Json.dumps_utf8_isOk rt .canonical rfl]
  exact ⟨fun h => ⟨h.1, h.2⟩, fun h => ⟨h.fits, h.chars⟩⟩

theorem Clean.le {limit limit' : Nat} {j : Json} (h : Clean limit j) (hle : limit ≤ limit') : Clean limit' j :=
  ⟨Json.fits_le true limit limit' hle j h.fits, h.chars⟩

theorem Clean.get {limit : Nat} {fields : List (PyStr × Json)} (h : Clean limit (.obj fields)) (name : String) :
    Clean (limit - 1) (get fields name) := by
  unfold Listener.get
  cases hlookup : Json.lookup (py name) fields with
  | none => exact ⟨trivial, trivial⟩
  | some value =>
      have hmem := Json.mem_of_lookup _ _ _ hlookup
      have hchars := (Json.allCharsFields_iff _ _).mp h.chars
      exact ⟨(Json.fitsFields_iff _ _ _).mp h.fits.2 _ hmem, (hchars _ hmem).2⟩

theorem Clean.pos {limit : Nat} {fields : List (PyStr × Json)} (h : Clean limit (.obj fields)) : 0 < limit := h.fits.1

theorem asObject_eq_ok (reason : String) (j : Json) (fields : List (PyStr × Json)) :
    asObject reason j = .ok fields ↔ j = .obj fields := by
  cases j <;> simp [asObject]

theorem asObject_reason (reason : String) (j : Json) (e : PyStr) (h : asObject reason j = .error e) : Encodable e := by
  cases j with
  | obj fields => cases h
  | _ =>
      obtain rfl := Except.error.inj h
      exact encodable_py reason

theorem readVersion_reason (j : Json) (hj : Clean limit j) (e : PyStr) (h : readVersion cfg j = .error e) :
    Encodable e := by
  have hreason : Encodable (py "unsupported SafeSignal version: " ++ Json.repr cfg.rt.printable j) :=
    (encodable_append _ _).mpr ⟨encodable_py _, encodable_repr _ j hj.chars⟩
  unfold readVersion at h
  split at h
  · split at h
    · cases h
    · rwa [← Except.error.inj h]
  · rwa [← Except.error.inj h]

theorem readVersion_eq_ok (j : Json) (version : PyStr) : readVersion cfg j = .ok version ↔
    j = .str version ∧ version = py "1" := by
  cases j with
  | str text =>
      simp only [readVersion]
      split
      · next hone => simp [hone, eq_comm]
      · next hone =>
          refine iff_of_false (by simp) ?_
          rintro ⟨htext, rfl⟩
          exact hone (Json.str.inj htext)
  | _ => simp [readVersion]

theorem readSig_eq_ok (j : Json) (sig : PyStr) : readSig j = .ok sig ↔ j = .str sig ∧ sig ≠ [] := by
  cases j with
  | str text =>
      simp only [readSig]
      split
      · next hnil => simp [hnil, eq_comm]
      · next hnil =>
          rw [Except.ok.injEq, Json.str.injEq]
          exact ⟨fun h => ⟨h, h ▸ hnil⟩, fun h => h.1⟩
  | _ => simp [readSig]

theorem readSig_reason (j : Json) (e : PyStr) (h : readSig j = .error e) : Encodable e := by
  unfold readSig at h
  split at h
  · split at h
    · rw [← Except.error.inj h]
      exact encodable_py _
    · cases h
  · rw [← Except.error.inj h]
    exact encodable_py _

theorem readTs_eq_ok (j : Json) (ts : PyStr) : readTs j = .ok ts ↔ j = .str ts ∧ strip ts ≠ [] := by
  cases j with
  | str text =>
      simp only [readTs]
      split
      · next hnil =>
          refine iff_of_false (by simp) ?_
          rintro ⟨htext, hne⟩
          exact hne (Json.str.inj htext ▸ hnil)
      · next hnil =>
          rw [Except.ok.injEq, Json.str.injEq]
          exact ⟨fun h => ⟨h, h ▸ hnil⟩, fun h => h.1⟩
  | _ => simp [readTs]

theorem readTs_reason (j : Json) (e : PyStr) (h : readTs j = .error e) : Encodable e := by
  unfold readTs at h
  split at h
  · split at h
    · rw [← Except.error.inj h]
      exact encodable_py _
    · cases h
  · rw [← Except.error.inj h]
    exact encodable_py _

theorem readTimestamp_reason (ts : PyStr) (hts : Encodable ts) (e : PyStr) (h : readTimestamp cfg ts = .error e) :
    Encodable e := by
  unfold readTimestamp at h
  split at h
  · rw [← Except.error.inj h]
    exact (encodable_append _ _).mpr ⟨encodable_py _, encodable_reprStr _ ts hts⟩
  · rw [← Except.error.inj h]
    exact encodable_py _
  · cases h

theorem bind_eq_error {ε α β : Type} (x : Except ε α) (f : α → Except ε β) (e : ε) :
    (x >>= f) = .error e ↔ x = .error e ∨ ∃ a, x = .ok a ∧ f a = .error e := by
  cases x <;> simp [bind, Except.bind]

-- What has been read from an event that passes the checks in front of the signature.
structure Reads (cfg : Config) (event : Json) (e : Envelope) (fields ss : List (PyStr × Json)) : Prop where
  event : event = .obj fields
  safesignal : get fields "safesignal" = .obj ss
  version : get ss "version" = .str (py "1") ∧ e.version = py "1"
  sig : get ss "sig" = .str e.sig ∧ e.sig ≠ []
  ts : get ss "ts" = .str e.ts ∧ strip e.ts ≠ []
  payload : get fields "payload" = .obj e.payload
  timestamp : readTimestamp cfg e.ts = .ok (e.wall, e.offset)

theorem readEnvelope_eq_ok (event : Json) (e : Envelope) :
    readEnvelope cfg event = .ok e ↔ ∃ fields ss, Reads cfg event e fields ss := by
  simp only [readEnvelope, bind_eq_ok, asObject_eq_ok, readVersion_eq_ok, readSig_eq_ok, readTs_eq_ok]
  constructor
  · rintro ⟨fields, hfields, ss, hss, version, ⟨hversion, rfl⟩, sig, hsig, ts, hts, payload, hpayload,
      ⟨wall, offset⟩, htime, he⟩
    obtain rfl := Except.ok.inj he
    exact ⟨fields, ss, hfields, hss, ⟨hversion, rfl⟩, hsig, hts, hpayload, htime⟩
  · rintro ⟨fields, ss, h⟩
    obtain ⟨version, sig, ts, payload, wall, offset⟩ := e
    obtain ⟨hversion, rfl⟩ := h.version
    exact ⟨fields, h.event, ss, h.safesignal, _, ⟨hversion, rfl⟩, sig, h.sig, ts, h.ts, payload, h.payload,
      (wall, offset), h.timestamp, rfl⟩

theorem readEnvelope_reason (event : Json) (hevent : Clean limit event) (reason : PyStr)
    (h : readEnvelope cfg event = .error reason) : Encodable reason := by
  rw [readEnvelope, bind_eq_error] at h
  rcases h with h | ⟨fields, hfields, h⟩
  · exact asObject_reason _ _ _ h
  obtain rfl := (asObject_eq_ok _ _ _).mp hfields
  rw [bind_eq_error] at h
  rcases h with h | ⟨ss, hss, h⟩
  · exact asObject_reason _ _ _ h
  have hclean : Clean (limit - 1) (.obj ss) := (asObject_eq_ok _ _ _).mp hss ▸ hevent.get "safesignal"
  rw [bind_eq_error] at h
  rcases h with h | ⟨version, -, h⟩
  · exact readVersion_reason _ (hclean.get "version") _ h
  rw [bind_eq_error] at h
  rcases h with h | ⟨sig, -, h⟩
  · exact readSig_reason _ _ h
  rw [bind_eq_error] at h
  rcases h with h | ⟨ts, hts, h⟩
  · exact readTs_reason _ _ h
  have hchars : Encodable ts := by
    have hget := (hclean.get "ts").chars
    rw [((readTs_eq_ok _ _).mp hts).1] at hget
    exact hget
  rw [bind_eq_error] at h
  rcases h with h | ⟨payload, -, h⟩
  · exact asObject_reason _ _ _ h
  rw [bind_eq_error] at h
  rcases h with h | ⟨time, -, h⟩
  · exact readTimestamp_reason ts hchars _ h
  · cases h

theorem Reads.clean_payload {event : Json} {e : Envelope} {fields ss : List (PyStr × Json)}
    (h : Reads cfg event e fields ss) (hevent : Clean limit event) : Clean (limit - 1) (.obj e.payload) := by
  rw [h.event] at hevent
  exact h.payload ▸ hevent.get "payload"

theorem Reads.encodable_ts {event : Json} {e : Envelope} {fields ss : List (PyStr × Json)}
    (h : Reads cfg event e fields ss) (hevent : Clean limit event) : Encodable e.ts := by
  rw [h.event] at hevent
  have hss := hevent.get "safesignal"
  rw [h.safesignal] at hss
  have hts := (hss.get "ts").chars
  rw [h.ts.1] at hts
  exact hts

-- The message that an envelope is signed with can be written down if its payload leaves
-- room for the two frames in which that is done.
theorem signedMessageBytes_isOk_iff {event : Json} {e : Envelope} {fields ss : List (PyStr × Json)}
    (h : Reads cfg event e fields ss) (hevent : Clean cfg.rt.nesting event) :
    (∃ bs, signedMessageBytes cfg e.version e.ts e.payload = .ok bs) ↔
      Json.depth (.obj e.payload) + 3 ≤ cfg.rt.nesting := by
  have hfits : Json.Fits true (cfg.rt.nesting - 1) (.obj e.payload) := (h.clean_payload hevent).fits
  unfold signedMessageBytes
  rw [canonicalBytes_isOk_iff]
  constructor
  · intro hmessage
    have hpayload : Json.Fits true (cfg.rt.nesting - 2 - 1) (.obj e.payload) := hmessage.fits.2.2.2.2.1
    have hpos : 0 < cfg.rt.nesting - 2 := hmessage.pos
    have hdepth := (Json.fits_iff_depth true _ _ _ hfits).mp hpayload
    omega
  · intro hdepth
    have hpayload := (Json.fits_iff_depth true _ (cfg.rt.nesting - 2 - 1) _ hfits).mpr (by omega)
    refine ⟨⟨?_, trivial, trivial, trivial, hpayload, trivial⟩, ?_⟩
    · rw [Runtime.below_nesting]
      omega
    · have hchars := (h.clean_payload hevent).chars
      have hts := h.encodable_ts hevent
      have hversion : Encodable e.version := h.version.2 ▸ encodable_py _
      simp only [Json.AllChars, Json.AllCharsFields, and_true]
      exact ⟨encodable_py _, encodable_py _, encodable_py _, hversion, encodable_py _, hts, encodable_py _, hchars⟩

theorem isAscii_hexdigest (d : Digest) : isAscii (hexdigest d) = true := by
  rw [isAscii, List.all_eq_true]
  intro c hc
  have hchar := hexdigest_chars d c hc
  simp only [isHexChar, CodePoint.isDigit, Bool.or_eq_true, Bool.and_eq_true, decide_eq_true_eq] at hchar
  simp only [CodePoint.isAscii, decide_eq_true_eq]
  omega

theorem verifySignature_eq (payload : Bytes) (sig : PyStr) : verifySignature cfg key payload sig =
    if isAscii sig then .ok (decide (cfg.rt.hmacHex key payload = sig)) else .error .typeError := by
  have hhex : isAscii (cfg.rt.hmacHex key payload) = true := isAscii_hexdigest _
  rw [verifySignature, computeSignature, compareDigest, hhex, Bool.true_and]
  split
  · rfl
  · rfl

theorem checkAge_reason (now : Nat) (e : Envelope) (reason : PyStr) (h : checkAge now e = .error reason) :
    Encodable reason := by
  have hreason : ∀ text : String, Encodable (py text ++ formatFixed 0 (ageSeconds now e) ++ py "s") := fun text => by
    simp only [encodable_append]
    exact ⟨⟨encodable_py _, encodable_formatFixed _ _⟩, encodable_py _⟩
  unfold checkAge at h
  dsimp only at h
  split at h
  · rw [← Except.error.inj h]
    exact hreason _
  · split at h
    · rw [← Except.error.inj h]
      exact hreason _
    · cases h

-- The message that is signed can be written down, and the signature can be compared.
structure Envelope.Checkable (cfg : Config) (e : Envelope) : Prop where
  room : Json.depth (.obj e.payload) + 3 ≤ cfg.rt.nesting
  ascii : isAscii e.sig = true

-- The check of an event that can be written down raises at no other signature.
theorem checkAt_isOk_iff (event : Json) (hevent : Clean cfg.rt.nesting event) (now : Nat) :
    (∃ r, checkAt cfg key event now = .ok r) ↔ ∀ e, readEnvelope cfg event = .ok e → e.Checkable cfg := by
  unfold checkAt
  cases henvelope : readEnvelope cfg event with
  | error reason => simp
  | ok e =>
      obtain ⟨fields, ss, hreads⟩ := (readEnvelope_eq_ok event e).mp henvelope
      have hroom := signedMessageBytes_isOk_iff hreads hevent
      simp only [Except.ok.injEq, forall_eq']
      cases hmessage : signedMessageBytes cfg e.version e.ts e.payload with
      | error raised =>
          rw [hmessage] at hroom
          refine iff_of_false ?_ fun hcheckable => ?_
          · rintro ⟨r, hr⟩
            cases hr
          · obtain ⟨bs, hbs⟩ := hroom.mpr hcheckable.room
            cases hbs
      | ok bs =>
          have hroom := hroom.mp ⟨bs, hmessage⟩
          simp only [ok_bind, verifySignature_eq]
          split
          · next hascii => exact iff_of_true ⟨_, rfl⟩ ⟨hroom, hascii⟩
          · next hascii => exact iff_of_false (by simp) fun hcheckable => hascii hcheckable.ascii

theorem checkAt_reason (event : Json) (hevent : Clean limit event) (now : Nat) (reason : PyStr)
    (h : checkAt cfg key event now = .ok (.error reason)) : Encodable reason := by
  unfold checkAt at h
  cases henvelope : readEnvelope cfg event with
  | error r =>
      simp only [henvelope, Except.ok.injEq, Except.error.injEq] at h
      exact readEnvelope_reason event hevent reason (h ▸ henvelope)
  | ok e =>
      simp only [henvelope, bind_eq_ok] at h
      obtain ⟨bs, -, valid, -, h⟩ := h
      have h := Except.ok.inj h
      split at h
      · exact checkAge_reason now e reason h
      · rw [← Except.error.inj h]
        exact encodable_py _

theorem validatePayload_reason (payload : Json) (reason : PyStr) (h : validatePayload cfg payload = .error reason) :
    Encodable reason := by
  have hnonEmpty : ∀ (text : String) (j : Json) (e : PyStr), nonEmptyText text j = .error e → Encodable e := by
    intro text j e he
    unfold nonEmptyText at he
    split at he
    · split at he
      · rw [← Except.error.inj he]
        exact encodable_py _
      · cases he
    · rw [← Except.error.inj he]
      exact encodable_py _
  rw [validatePayload, bind_eq_error] at h
  rcases h with h | ⟨fields, -, h⟩
  · exact asObject_reason _ _ _ h
  dsimp only at h
  split at h
  · rw [← Except.error.inj h]
    refine (encodable_append _ _).mpr ⟨encodable_py _, encodable_repr _ _ ?_⟩
    rw [Json.AllChars, Json.allCharsItems_iff]
    intro j hj
    obtain ⟨name, -, rfl⟩ := List.mem_map.mp hj
    exact encodable_py name
  · rw [bind_eq_error] at h
    rcases h with h | ⟨-, -, h⟩
    · exact hnonEmpty _ _ _ h
    rw [bind_eq_error] at h
    rcases h with h | ⟨-, -, h⟩
    · exact hnonEmpty _ _ _ h
    rw [bind_eq_error] at h
    rcases h with h | ⟨_, -, h⟩
    · exact asObject_reason _ _ _ h
    · cases h

-- A payload of the right shape.
structure Shaped (payload : List (PyStr × Json)) : Prop where
  eventType : ∃ text, get payload "event_type" = .str text ∧ strip text ≠ []
  source : ∃ text, get payload "source" = .str text ∧ strip text ≠ []
  data : ∃ fields, get payload "data" = .obj fields

theorem nonEmptyText_eq_ok (reason : String) (j : Json) :
    nonEmptyText reason j = .ok () ↔ ∃ text, j = .str text ∧ strip text ≠ [] := by
  cases j with
  | str text =>
      simp only [nonEmptyText, Json.str.injEq, exists_eq_left']
      split <;> simp [*]
  | _ => simp [nonEmptyText]

theorem validatePayload_shaped (j : Json) (payload : List (PyStr × Json)) (h : validatePayload cfg j = .ok payload) :
    j = .obj payload ∧ Shaped payload := by
  rw [validatePayload, bind_eq_ok] at h
  obtain ⟨fields, hfields, h⟩ := h
  dsimp only at h
  split at h
  · cases h
  · obtain ⟨⟨⟩, heventType, h⟩ := (bind_eq_ok _ _ _).mp h
    obtain ⟨⟨⟩, hsource, h⟩ := (bind_eq_ok _ _ _).mp h
    obtain ⟨data, hdata, h⟩ := (bind_eq_ok _ _ _).mp h
    obtain rfl := Except.ok.inj h
    exact ⟨(asObject_eq_ok _ _ _).mp hfields, (nonEmptyText_eq_ok _ _).mp heventType,
      (nonEmptyText_eq_ok _ _).mp hsource, data, (asObject_eq_ok _ _ _).mp hdata⟩

-- A payload of the right shape has a place where it is booked.
theorem routed_isOk (payload : List (PyStr × Json)) (hclean : Clean cfg.rt.nesting (.obj payload))
    (h : Shaped payload) : ∃ entry, routed cfg payload = .ok entry := by
  obtain ⟨text, htext, -⟩ := h.eventType
  obtain ⟨data, hdata⟩ := h.data
  have hlookup : ∀ (name : String) (default : Json), get payload name ≠ .null →
      (Json.lookup (py name) payload).getD default = get payload name := by
    intro name default hne
    unfold get at hne ⊢
    cases hfound : Json.lookup (py name) payload with
    | none =>
        rw [hfound] at hne
        exact absurd rfl hne
    | some value => rfl
  have hdataText : ∃ dataText, dumps (cfg.rt.below 1) dataStyle (.obj data) = .ok dataText := by
    have hfits : Json.Fits true (cfg.rt.nesting - 1) (get payload "data") := (hclean.get "data").fits
    rw [hdata] at hfits
    obtain ⟨dataText, h⟩ := (Json.encode_isOk_iff dataStyle _ _).mpr hfits
    exact ⟨dataText, (dumps_eq_ok _ _ _ _).mpr h⟩
  have hpayloadText : ∃ payloadText, dumps cfg.rt payloadStyle (.obj payload) = .ok payloadText := by
    obtain ⟨payloadText, h⟩ := (Json.encode_isOk_iff payloadStyle _ _).mpr hclean.fits
    exact ⟨payloadText, (dumps_eq_ok _ _ _ _).mpr h⟩
  obtain ⟨dataText, hdataText⟩ := hdataText
  obtain ⟨payloadText, hpayloadText⟩ := hpayloadText
  have heventType := hlookup "event_type" (.str []) (by simp [htext])
  have hdataLookup := hlookup "data" (.obj []) (by simp [hdata])
  rw [routed, computeConfidence, heventType, htext, hdataLookup, hdata]
  simp only [lowered, hdataText, hpayloadText, ok_bind]
  exact ⟨_, rfl⟩

theorem encodable_textOf (payload : List (PyStr × Json)) (hclean : Clean limit (.obj payload)) (name : String) :
    Encodable (textOf payload name) := by
  have hchars := (hclean.get name).chars
  unfold textOf
  split
  · next text htext =>
      rw [htext] at hchars
      exact hchars
  · exact encodable_py ""

-- The texts of an entry can be written down.
def Entry.Encodable : Entry → Prop
  | .quarantined reason => Listener.Encodable reason
  | .queued eventType source payloadJson _ | .accepted eventType source payloadJson _ =>
      Listener.Encodable eventType ∧ Listener.Encodable source ∧ Listener.Encodable payloadJson

theorem routed_encodable (payload : List (PyStr × Json)) (hclean : Clean limit (.obj payload)) (entry : Entry)
    (h : routed cfg payload = .ok entry) : entry.Encodable := by
  obtain ⟨confidence, -, h⟩ := (bind_eq_ok _ _ _).mp h
  obtain ⟨payloadJson, hjson, h⟩ := (bind_eq_ok _ _ _).mp h
  have hpayloadJson : Encodable payloadJson :=
    Json.encode_ascii_chars _ isSurrogate_of_ascii payloadStyle rfl _ _ _ ((dumps_eq_ok _ _ _ _).mp hjson)
  have htexts := And.intro (encodable_textOf payload hclean "event_type")
    (And.intro (encodable_textOf payload hclean "source") hpayloadJson)
  have h := Except.ok.inj h
  split at h
  · exact h ▸ htexts
  · exact h ▸ htexts

theorem entryOfEvent_encodable (event : Json) (hevent : Clean limit event) (now : Nat) (entry : Entry)
    (h : entryOfEvent cfg key event now = .ok entry) : entry.Encodable := by
  obtain ⟨r, hr, h⟩ := (bind_eq_ok _ _ _).mp h
  cases r with
  | error reason =>
      rw [← Except.ok.inj h]
      exact (encodable_append _ _).mpr ⟨encodable_py _, checkAt_reason event hevent now reason hr⟩
  | ok _ =>
      cases event with
      | obj fields =>
          dsimp only at h
          split at h
          · next reason hvalid =>
              rw [← Except.ok.inj h]
              exact (encodable_append _ _).mpr ⟨encodable_py _, validatePayload_reason _ _ hvalid⟩
          · next payload hvalid =>
              have hclean := hevent.get "payload"
              rw [(validatePayload_shaped _ _ hvalid).1] at hclean
              exact routed_encodable payload hclean entry h
      | _ =>
          rw [← Except.ok.inj h]
          exact encodable_py _

theorem entryOfEvent_isOk_iff (event : Json) (hevent : Clean cfg.rt.nesting event) (now : Nat) :
    (∃ entry, entryOfEvent cfg key event now = .ok entry) ↔
      ∀ e, readEnvelope cfg event = .ok e → e.Checkable cfg := by
  have hchecked : (∃ r, checkAt cfg key event now = .ok r) ↔ ∀ e, readEnvelope cfg event = .ok e → e.Checkable cfg :=
    checkAt_isOk_iff event hevent now
  rw [← hchecked]
  constructor
  · rintro ⟨entry, h⟩
    obtain ⟨r, hr, -⟩ := (bind_eq_ok _ _ _).mp h
    exact ⟨r, hr⟩
  · rintro ⟨r, hr⟩
    unfold entryOfEvent
    rw [hr, ok_bind]
    cases r with
    | error reason => exact ⟨_, rfl⟩
    | ok _ =>
        cases event with
        | obj fields =>
            dsimp only
            split
            · exact ⟨_, rfl⟩
            · next payload hvalid =>
                obtain ⟨hpayload, hshaped⟩ := validatePayload_shaped _ _ hvalid
                have hclean := (hevent.get "payload").le (Nat.sub_le _ _)
                rw [hpayload] at hclean
                exact routed_isOk payload hclean hshaped
        | _ => exact ⟨_, rfl⟩

end Checks

section Contents

variable {cfg key}

theorem loadsBytes_sound (rt : Runtime) (content : Bytes) (event : Json) (h : loadsBytes rt content = .ok event) :
    Json.Wf event ∧ Json.Fits true rt.nesting event := by
  obtain ⟨text, -, h⟩ := (bind_eq_ok _ _ _).mp h
  split at h
  · cases h
  · exact Json.loads_sound _ _ _ ((loadsText_eq_ok _ _ _).mp h)

theorem clean_of_canonical (rt : Runtime) (event : Json) (canonical : Bytes)
    (h : canonicalBytes rt event = .ok canonical) : Clean rt.nesting event :=
  (canonicalBytes_isOk_iff rt event).mp ⟨canonical, h⟩

-- The content is JSON without a lone surrogate whose signature, where one is looked at,
-- can be checked, or it is malformed in a way that is a `JSONDecodeError`.
def Drainable (cfg : Config) (content : Bytes) : Prop :=
  match loadsBytes cfg.rt content with
  | .ok event => event.AllChars (fun c => c.isSurrogate = false) ∧
      ∀ e, readEnvelope cfg event = .ok e → e.Checkable cfg
  | .error e => ∃ msg pos, e = .jsonDecode msg pos

-- Such content has an entry at every time, and other content has none at any time.
theorem entryOf_isOk_iff (content : Bytes) (now : Nat) :
    (∃ booked, entryOf cfg key content now = .ok booked) ↔ Drainable cfg content := by
  unfold entryOf Drainable
  cases hload : loadsBytes cfg.rt content with
  | error e =>
      cases e with
      | jsonDecode msg pos => exact iff_of_true ⟨_, rfl⟩ ⟨msg, pos, rfl⟩
      | _ =>
          refine iff_of_false ?_ ?_
          · rintro ⟨booked, h⟩
            cases h
          · rintro ⟨msg, pos, h⟩
            cases h
  | ok event =>
      have hfits := (loadsBytes_sound cfg.rt content event hload).2
      dsimp only
      constructor
      · rintro ⟨booked, h⟩
        obtain ⟨canonical, hcanonical, h⟩ := (bind_eq_ok _ _ _).mp h
        obtain ⟨entry, hentry, -⟩ := (bind_eq_ok _ _ _).mp h
        have hclean := clean_of_canonical _ _ _ hcanonical
        exact ⟨hclean.chars, (entryOfEvent_isOk_iff event hclean now).mp ⟨entry, hentry⟩⟩
      · rintro ⟨hchars, hcheckable⟩
        have hclean : Clean cfg.rt.nesting event := ⟨hfits, hchars⟩
        obtain ⟨canonical, hcanonical⟩ := (canonicalBytes_isOk_iff cfg.rt event).mpr hclean
        obtain ⟨entry, hentry⟩ : ∃ entry, entryOfEvent cfg key event now = .ok entry :=
          (entryOfEvent_isOk_iff event hclean now).mpr hcheckable
        exact ⟨(cfg.rt.sha256Hex canonical, entry), by rw [hcanonical, ok_bind, hentry]; rfl⟩

theorem eventIdOf_of_entryOf (content : Bytes) (now : Nat) (eventId : PyStr) (entry : Entry)
    (h : entryOf cfg key content now = .ok (eventId, entry)) : eventIdOf cfg content = .ok eventId := by
  unfold entryOf at h
  unfold eventIdOf
  cases hload : loadsBytes cfg.rt content with
  | error e =>
      rw [hload] at h
      cases e with
      | jsonDecode msg pos => exact congrArg Except.ok (Prod.mk.inj (Except.ok.inj h)).1
      | _ => cases h
  | ok event =>
      rw [hload] at h
      obtain ⟨canonical, hcanonical, h⟩ := (bind_eq_ok _ _ _).mp h
      obtain ⟨entry', -, h⟩ := (bind_eq_ok _ _ _).mp h
      dsimp only
      rw [hcanonical]
      exact congrArg Except.ok (Prod.mk.inj (Except.ok.inj h)).1

theorem entryOf_encodable (content : Bytes) (now : Nat) (eventId : PyStr) (entry : Entry)
    (h : entryOf cfg key content now = .ok (eventId, entry)) : Encodable eventId ∧ entry.Encodable := by
  unfold entryOf at h
  cases hload : loadsBytes cfg.rt content with
  | error e =>
      rw [hload] at h
      cases e with
      | jsonDecode msg pos =>
          obtain ⟨rfl, rfl⟩ := Prod.mk.inj (Except.ok.inj h)
          refine ⟨encodable_hexdigest _, (encodable_append _ _).mpr ⟨encodable_py _, ?_⟩⟩
          simp only [jsonDecodeText, encodable_append]
          exact ⟨⟨⟨⟨⟨⟨⟨encodable_py _, encodable_py _⟩, encodable_natText _⟩, encodable_py _⟩, encodable_natText _⟩,
            encodable_py _⟩, encodable_natText _⟩, encodable_py _⟩
      | _ => cases h
  | ok event =>
      rw [hload] at h
      obtain ⟨canonical, hcanonical, h⟩ := (bind_eq_ok _ _ _).mp h
      obtain ⟨entry', hentry, h⟩ := (bind_eq_ok _ _ _).mp h
      obtain ⟨rfl, rfl⟩ := Prod.mk.inj (Except.ok.inj h)
      exact ⟨encodable_hexdigest _, entryOfEvent_encodable event (clean_of_canonical _ _ _ hcanonical) now _ hentry⟩

end Contents

end V91Core.Listener
