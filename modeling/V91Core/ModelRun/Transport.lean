import V91Core.Json.Surrogates
import V91Core.ModelRun.Session
import V91Core.Python.JsonForm

namespace V91Core.ModelRun

open V91Core.Python V91Core.Effect

variable (rt : Runtime)

-- `json.dumps(manifest)`.
def defaultStyle : Json.Style := ⟨true, false, true, true⟩

-- The manifest is serialised and loaded again, and what is loaded is valid and an exact replay.
-- The settings are hashed two frames below the caller when the builder or the validation is
-- called, and three when `verify_exact_replay` calls the validation.
def Survives (record : RunRecord) : Prop :=
  ∃ text reloaded accepted verdict, (PyData.dict record.entries).dumps rt defaultStyle = .ok text ∧
    loadsText rt text = .ok reloaded ∧ validateRunManifest (rt.below 2) (.ofJson reloaded) = .ok accepted ∧
    verifyExactReplay (rt.below 3) (.dict record.entries) (.ofJson reloaded) = .ok verdict ∧
    verdict.status = .verifiedExact

-- The record that is loaded.
def RunRecord.reloaded (record : RunRecord) : RunRecord where
  modelDigest := record.modelDigest
  tokenizerDigest := record.tokenizerDigest
  runtimeDigest := record.runtimeDigest
  inputDigest := record.inputDigest
  outputDigest := record.outputDigest
  settings := PyData.ofFields (PyData.asFields record.settings)
  settingsDigest := record.settingsDigest
  seed := record.seed
  precision := Json.joinPairs record.precision
  backend := Json.joinPairs record.backend

-- The two texts of the settings that are hashed.
def RunRecord.settingsTexts (record : RunRecord) : Set Bytes :=
  {m | canonicalJson rt (.dict record.settings) = .ok m ∨ canonicalJson rt (.dict record.reloaded.settings) = .ok m}

section Checked

theorem validateDigest_eq_ok (name : String) (value : PyData) (digest : PyStr)
    (h : validateDigest name value = .ok digest) :
    value = .str digest ∧ digest.length = 64 ∧ digest.all isHexChar = true := by
  unfold validateDigest at h
  split at h
  · split at h
    · cases h
    · next hlength =>
        split at h
        · next hall =>
            obtain rfl := Except.ok.inj h
            exact ⟨rfl, not_not.mp hlength, hall⟩
        · cases h
  · cases h

theorem requireText_str (value : PyData) (e : PyExc) (text : PyStr) (h : requireText value e = .ok text) :
    value = .str text ∧ strip text ≠ [] := by
  refine ⟨?_, requireText_eq_ok value e text h⟩
  unfold requireText PyData.nonBlank? at h
  split at h
  · split at h
    · cases h
    · exact congrArg PyData.str (Except.ok.inj h)
  · cases h

theorem requireSeed_eq_ok (value : PyData) (e : PyExc) (seed : Nat) (h : requireSeed value e = .ok seed) :
    value = .int seed := by
  unfold requireSeed at h
  split at h
  · split at h
    · cases h
    · next n hn =>
        obtain rfl := Except.ok.inj h
        rw [Int.toNat_of_nonneg (by omega)]
  · cases h

theorem requireMapping_eq_ok (value : PyData) (e : PyExc) (entries : List (PyData × PyData))
    (h : requireMapping value e = .ok entries) : value = .dict entries := by
  unfold requireMapping at h
  split at h
  · obtain rfl := Except.ok.inj h
    rfl
  · cases h

theorem sha256Bytes_eq_ok (value : PyData) (digest : PyStr) (h : sha256Bytes rt value = .ok digest) :
    digest.length = 64 ∧ digest.all isHexChar = true := by
  unfold sha256Bytes at h
  split at h
  · obtain rfl := Except.ok.inj h
    exact sha256Hex_isDigest rt _
  · cases h

theorem checkManifest_eq_ok (ok : Bool) (msg : String) (u : Unit) : checkManifest ok msg = .ok u ↔ ok = true := by
  cases ok <;> simp [checkManifest]

-- What a manifest has been built from.
structure BuiltFrom (args : RunArgs) (record : RunRecord) : Prop where
  parameters : args.parameters = .dict record.settings
  seed : args.seed = .int record.seed
  precision : args.precision = .str record.precision
  backend : args.backend = .str record.backend
  sound : record.Sound rt

theorem build_eq_ok (args : RunArgs) (record : RunRecord) (h : buildRunManifest rt args = .ok record) :
    BuiltFrom rt args record := by
  unfold buildRunManifest at h
  obtain ⟨modelDigest, hmodel, h⟩ := (bind_eq_ok _ _ _).mp h
  obtain ⟨tokenizerDigest, htokenizer, h⟩ := (bind_eq_ok _ _ _).mp h
  obtain ⟨runtimeDigest, hruntime, h⟩ := (bind_eq_ok _ _ _).mp h
  obtain ⟨seed, hseed, h⟩ := (bind_eq_ok _ _ _).mp h
  obtain ⟨settings, hsettings, h⟩ := (bind_eq_ok _ _ _).mp h
  obtain ⟨precision, hprecision, h⟩ := (bind_eq_ok _ _ _).mp h
  obtain ⟨backend, hbackend, h⟩ := (bind_eq_ok _ _ _).mp h
  obtain ⟨text, htext, h⟩ := (bind_eq_ok _ _ _).mp h
  obtain ⟨inputDigest, hinput, h⟩ := (bind_eq_ok _ _ _).mp h
  obtain ⟨outputDigest, houtput, h⟩ := (bind_eq_ok _ _ _).mp h
  obtain rfl := Except.ok.inj h
  obtain ⟨hprecision, hprecision'⟩ := requireText_str _ _ _ hprecision
  obtain ⟨hbackend, hbackend'⟩ := requireText_str _ _ _ hbackend
  exact ⟨requireMapping_eq_ok _ _ _ hsettings, requireSeed_eq_ok _ _ _ hseed, hprecision, hbackend,
    ⟨(validateDigest_eq_ok _ _ _ hmodel).2, (validateDigest_eq_ok _ _ _ htokenizer).2,
      (validateDigest_eq_ok _ _ _ hruntime).2, sha256Bytes_eq_ok rt _ _ hinput, sha256Bytes_eq_ok rt _ _ houtput,
      ⟨text, htext, rfl⟩, hprecision', hbackend'⟩⟩

-- The validation accepts nothing else.
theorem validate_entries_eq_ok (record accepted : RunRecord)
    (h : validateRunManifest rt (.dict record.entries) = .ok accepted) : record.Sound rt := by
  unfold validateRunManifest at h
  obtain ⟨entries, hentries, h⟩ := (bind_eq_ok _ _ _).mp h
  obtain rfl := PyData.dict.inj (requireMapping_eq_ok _ _ _ hentries)
  obtain ⟨_, -, h⟩ := (bind_eq_ok _ _ _).mp h
  obtain ⟨_, -, h⟩ := (bind_eq_ok _ _ _).mp h
  obtain ⟨modelDigest, hmodel, h⟩ := (bind_eq_ok _ _ _).mp h
  obtain ⟨tokenizerDigest, htokenizer, h⟩ := (bind_eq_ok _ _ _).mp h
  obtain ⟨runtimeDigest, hruntime, h⟩ := (bind_eq_ok _ _ _).mp h
  obtain ⟨inputDigest, hinput, h⟩ := (bind_eq_ok _ _ _).mp h
  obtain ⟨outputDigest, houtput, h⟩ := (bind_eq_ok _ _ _).mp h
  obtain ⟨settingsDigest, hdigest, h⟩ := (bind_eq_ok _ _ _).mp h
  obtain ⟨settings, hsettings, h⟩ := (bind_eq_ok _ _ _).mp h
  obtain ⟨text, htext, h⟩ := (bind_eq_ok _ _ _).mp h
  obtain ⟨_, hsame, h⟩ := (bind_eq_ok _ _ _).mp h
  obtain ⟨seed, -, h⟩ := (bind_eq_ok _ _ _).mp h
  obtain ⟨precision, hprecision, h⟩ := (bind_eq_ok _ _ _).mp h
  obtain ⟨backend, hbackend, -⟩ := (bind_eq_ok _ _ _).mp h
  obtain ⟨hmodel, hmodel'⟩ := validateDigest_eq_ok _ _ _ hmodel
  obtain ⟨htokenizer, htokenizer'⟩ := validateDigest_eq_ok _ _ _ htokenizer
  obtain ⟨hruntime, hruntime'⟩ := validateDigest_eq_ok _ _ _ hruntime
  obtain ⟨hinput, hinput'⟩ := validateDigest_eq_ok _ _ _ hinput
  obtain ⟨houtput, houtput'⟩ := validateDigest_eq_ok _ _ _ houtput
  obtain ⟨hdigest, -⟩ := validateDigest_eq_ok _ _ _ hdigest
  obtain ⟨hprecision, hprecision'⟩ := requireText_str _ _ _ hprecision
  obtain ⟨hbackend, hbackend'⟩ := requireText_str _ _ _ hbackend
  have hsettings := requireMapping_eq_ok _ _ _ hsettings
  rw [checkManifest_eq_ok, decide_eq_true_eq] at hsame
  obtain rfl : record.modelDigest = modelDigest := PyData.str.inj hmodel
  obtain rfl : record.tokenizerDigest = tokenizerDigest := PyData.str.inj htokenizer
  obtain rfl : record.runtimeDigest = runtimeDigest := PyData.str.inj hruntime
  obtain rfl : record.inputDigest = inputDigest := PyData.str.inj hinput
  obtain rfl : record.outputDigest = outputDigest := PyData.str.inj houtput
  obtain rfl : record.settingsDigest = settingsDigest := PyData.str.inj hdigest
  obtain rfl : record.settings = settings := PyData.dict.inj hsettings
  obtain rfl : record.precision = precision := PyData.str.inj hprecision
  obtain rfl : record.backend = backend := PyData.str.inj hbackend
  exact ⟨hmodel', htokenizer', hruntime', hinput', houtput', ⟨text, htext, hsame⟩, hprecision', hbackend'⟩

end Checked

section Settings

theorem canonicalJson_eq_ok (value : PyData) (bytes : Bytes) (h : canonicalJson rt value = .ok bytes) :
    ∃ text, value.dumps rt strictStyle = .ok text ∧ utf8Encode text = some bytes := by
  unfold canonicalJson at h
  split at h
  · next hbytes =>
      obtain rfl := Except.ok.inj h
      obtain ⟨text, htext, hutf8⟩ := (bind_eq_ok _ _ _).mp hbytes
      exact ⟨text, htext, (encodeUtf8_eq_ok _ _).mp hutf8⟩
  · split at h
    · cases h
    · cases h

theorem canonicalJson_ok (value : PyData) (text : PyStr) (bytes : Bytes) (h : value.dumps rt strictStyle = .ok text)
    (hutf8 : utf8Encode text = some bytes) : canonicalJson rt value = .ok bytes := by
  have hbytes : (value.dumps rt strictStyle >>= encodeUtf8) = .ok bytes :=
    (bind_eq_ok _ _ _).mpr ⟨text, h, (encodeUtf8_eq_ok _ _).mpr hutf8⟩
  rw [canonicalJson, hbytes]

-- The strict style without the sorting.
def plainStyle : Json.Style := { strictStyle with sortKeys := false }

variable (value : PyData) (bytes : Bytes) (hunique : value.UniqueKeys)

-- What canonical JSON exists for, and which text it is.
theorem canonicalJson_sorted (h : canonicalJson rt value = .ok bytes) : value.Writable ∧
    ∃ text, utf8Encode text = some bytes ∧ Json.encode plainStyle rt.nesting value.sortedJson = .ok text := by
  obtain ⟨text, htext, hutf8⟩ := canonicalJson_eq_ok rt value bytes h
  have hwritable := PyData.writable_of_dumpsAt strictStyle rfl rfl rt.nesting value text htext
  rw [PyData.dumps, PyData.dumpsAt_sortedJson strictStyle rfl rt.nesting value hwritable, mapError_eq_ok] at htext
  exact ⟨hwritable, text, hutf8, htext⟩

-- The canonical JSON of what is loaded has the keys in the order of their names.
theorem canonicalJson_loaded (j : Json) (text : PyStr) (hutf8 : utf8Encode text = some bytes) :
    canonicalJson rt (.ofJson j) = .ok bytes ↔ Json.encode plainStyle rt.nesting (Json.norm j) = .ok text := by
  have hdumps : (PyData.ofJson j).dumps rt strictStyle =
      (Json.encode plainStyle rt.nesting (Json.norm j)).mapError PyData.encodeFailure := by
    rw [PyData.dumps, PyData.dumpsAt_ofJson, Json.encode_order]
    rfl
  constructor
  · intro h
    obtain ⟨text', htext, hutf8'⟩ := canonicalJson_eq_ok rt _ bytes h
    rw [hdumps, mapError_eq_ok] at htext
    rw [htext, utf8Encode_injective text text' bytes hutf8 hutf8']
  · intro h
    apply canonicalJson_ok rt _ text bytes ?_ hutf8
    rw [hdumps, h]
    rfl

include hunique

-- Settings that are loaded keep their canonical JSON exactly when their keys are in the
-- order of the names.
theorem canonicalJson_eq_iff (h : canonicalJson rt value = .ok bytes) :
    canonicalJson rt (.ofJson value.asJson) = .ok bytes ↔ value.InOrder := by
  obtain ⟨hwritable, text, hutf8, htext⟩ := canonicalJson_sorted rt value bytes h
  have hsorted := PyData.wf_sortedJson value hwritable hunique
  have hform := Json.wf_norm _ (PyData.wf_asJson value hwritable hunique)
  rw [canonicalJson_loaded rt bytes value.asJson text hutf8, ← PyData.sortedJson_eq_norm_iff value hwritable hunique]
  constructor
  · intro hnorm
    exact Json.encode_injective plainStyle rfl rt.nesting _ _ hsorted hform text htext hnorm
  · intro heq
    rw [← heq]
    exact htext

-- The settings can be written, and have no lone surrogate in them.
theorem canonicalJson_form (h : canonicalJson rt value = .ok bytes) : Json.Fits true rt.nesting value.asJson ∧
    Json.AllChars (fun c => c.isSurrogate = false) value.asJson := by
  obtain ⟨hwritable, text, hutf8, htext⟩ := canonicalJson_sorted rt value bytes h
  have hfits : Json.Fits false rt.nesting value.asJson :=
    (PyData.fits_asJson strictStyle rfl rt.nesting value hwritable hunique).mpr
      ((Json.encode_isOk_iff plainStyle rt.nesting _).mp ⟨text, htext⟩)
  have hfits := Json.fits_of_strict true rt.nesting _ hfits
  refine ⟨hfits, ?_⟩
  rw [PyData.allChars_asJson _ isSurrogate_of_ascii rt.nesting value hwritable hunique hfits,
    ← Json.encode_chars _ isSurrogate_of_ascii plainStyle rfl rt.nesting _ text htext, ← utf8Encode_isSome, hutf8]
  rfl

-- With room for the settings it is the same text everywhere.
theorem canonicalJson_room (h : canonicalJson rt value = .ok bytes) (rt' : Runtime)
    (hroom : Json.depth value.asJson ≤ rt'.nesting) : canonicalJson rt' value = .ok bytes := by
  obtain ⟨hwritable, text, hutf8, htext⟩ := canonicalJson_sorted rt value bytes h
  have hsorted : Json.Fits false rt.nesting value.sortedJson :=
    (Json.encode_isOk_iff plainStyle rt.nesting _).mp ⟨text, htext⟩
  have hfits : Json.Fits false rt.nesting value.asJson :=
    (PyData.fits_asJson strictStyle rfl rt.nesting value hwritable hunique).mpr hsorted
  have hsorted' : Json.Fits false rt'.nesting value.sortedJson :=
    (PyData.fits_asJson strictStyle rfl rt'.nesting value hwritable hunique).mp
      ((Json.fits_iff_depth false rt.nesting rt'.nesting _ hfits).mpr hroom)
  rw [Json.encode_fits plainStyle rt.nesting rt'.nesting _ hsorted hsorted'] at htext
  refine canonicalJson_ok rt' value text bytes ?_ hutf8
  rw [PyData.dumps, PyData.dumpsAt_sortedJson strictStyle rfl rt'.nesting value hwritable, mapError_eq_ok]
  exact htext

end Settings

section Loading

variable (record : RunRecord)

-- A value of the manifest after loading: the halves of a character come together.
def rejoin : Json → Json
  | .str s => .str (Json.joinPairs s)
  | j => j

def RunRecord.fields : List (PyStr × Json) := PyData.asFields record.entries

theorem fields_names : (record.fields.map Prod.fst).Nodup ∧
    ∀ f ∈ record.fields, ∀ c ∈ f.1, Json.Escapable defaultStyle.ensureAscii c := by
  have hnames : record.fields.map Prod.fst = [py "schema_version", py "model_digest", py "tokenizer_digest",
      py "runtime_digest", py "input_digest", py "output_digest", py "settings", py "settings_digest", py "seed",
      py "precision", py "backend", py "status"] := rfl
  have hchars : ((record.fields.map Prod.fst).all fun name => name.all fun c => !c.isSurrogate) = true := by
    rw [hnames]
    decide
  refine ⟨?_, fun f hf c hc _ => ?_⟩
  · rw [hnames]
    decide
  · have hname := List.all_eq_true.mp hchars f.1 (List.mem_map_of_mem hf)
    simpa using List.all_eq_true.mp hname c hc

-- The settings are the only container in a manifest.
theorem fields_cases (f : PyStr × Json) (hf : f ∈ record.fields) :
    (∃ s, f.2 = .str s) ∨ f.2 = .int 1 ∨ f.2 = .int record.seed ∨ f.2 = PyData.asJson (.dict record.settings) := by
  simp only [RunRecord.fields, RunRecord.entries, PyData.asFields, PyData.asJson, List.mem_cons, List.not_mem_nil,
    or_false] at hf
  rcases hf with rfl | rfl | rfl | rfl | rfl | rfl | rfl | rfl | rfl | rfl | rfl | rfl
  · exact .inr (.inl rfl)
  all_goals first
    | exact .inl ⟨_, rfl⟩
    | exact .inr (.inr (.inl rfl))
    | exact .inr (.inr (.inr rfl))

theorem field_readsAs (hwf : Json.Wf (PyData.asJson (.dict record.settings)))
    (hchars : Json.AllChars (fun c => c.isSurrogate = false) (PyData.asJson (.dict record.settings)))
    (f : PyStr × Json) (hf : f ∈ record.fields) (limit : Nat) (text : PyStr)
    (h : Json.encode defaultStyle limit f.2 = .ok text) :
    Json.ReadsAs (Json.parseValue limit) text (rejoin f.2) := by
  have hplain := Json.encode_readsAs defaultStyle limit
  rcases fields_cases record f hf with ⟨s, hs⟩ | hvalue | hvalue | hvalue
  · rw [hs] at h ⊢
    obtain rfl := Except.ok.inj h
    exact Json.joinPairs_readsAs limit s
  · rw [hvalue] at h ⊢
    exact hplain (.int 1) trivial trivial text h
  · rw [hvalue] at h ⊢
    exact hplain (.int record.seed) trivial trivial text h
  · rw [hvalue] at h ⊢
    exact hplain _ (Json.AllChars.mono (fun c hc _ => hc) _ hchars) hwf text h

theorem joinPairs_digest (digest : PyStr) (h : digest.length = 64 ∧ digest.all isHexChar = true) :
    Json.joinPairs digest = digest := by
  rw [Json.joinPairs_eq_iff]
  apply Json.noPair_of_escapable
  intro c hc
  exact isSurrogate_of_ascii c
    (by simpa [CodePoint.isAscii] using isAscii_of_isHexChar c (List.all_eq_true.mp h.2 c hc))

theorem dumps_manifest (hwritable : (PyData.dict record.settings).Writable) (text : PyStr) :
    (PyData.dict record.entries).dumps rt defaultStyle = .ok text ↔
      Json.encode defaultStyle rt.nesting (.obj record.fields) = .ok text := by
  have hentries : (PyData.dict record.entries).Writable := by
    refine ⟨⟨_, rfl⟩, ?_, ?_⟩
    · simp [RunRecord.entries, PyData.IsKey]
    · rw [PyData.writableEntries_iff]
      intro e he
      simp only [RunRecord.entries, List.mem_cons, List.not_mem_nil, or_false] at he
      rcases he with rfl | rfl | rfl | rfl | rfl | rfl | rfl | rfl | rfl | rfl | rfl | rfl
      all_goals first
        | exact hwritable
        | trivial
  rw [PyData.dumps, PyData.dumpsAt_asJson defaultStyle rfl rt.nesting _ hentries, mapError_eq_ok]
  rfl

theorem depth_settings_pos : 0 < Json.depth (PyData.asJson (.dict record.settings)) := by
  rw [PyData.asJson, Json.depth]
  omega

-- The manifest is one level deeper than its settings, and the caller has this room.
theorem encode_manifest_isOk
    (hfits : Json.Fits true (rt.below 2).nesting (PyData.asJson (.dict record.settings))) :
    (∃ text, Json.encode defaultStyle rt.nesting (.obj record.fields) = .ok text) ↔
      (natText record.seed).length ≤ Json.maxIntDigits := by
  have hdepth := (Json.fits_iff_depth true _ _ _ hfits).mp hfits
  have hpos := depth_settings_pos record
  rw [Runtime.below_nesting] at hdepth
  have hone : (natText 1).length ≤ Json.maxIntDigits := by decide
  rw [Json.encode_isOk_iff]
  constructor
  · intro h
    have hfields := (Json.fitsFields_iff _ _ _).mp h.2
    have hseed := hfields (py "seed", .int record.seed)
      (by simp [RunRecord.fields, RunRecord.entries, PyData.named, PyData.keyName, PyData.asJson])
    exact hseed
  · intro hseed
    refine ⟨by omega, (Json.fitsFields_iff _ _ _).mpr fun f hf => ?_⟩
    rcases fields_cases record f hf with ⟨s, hs⟩ | hvalue | hvalue | hvalue
    · rw [hs]
      trivial
    · rw [hvalue]
      exact hone
    · rw [hvalue]
      exact hseed
    · rw [hvalue]
      exact (Json.fits_iff_depth true _ (rt.nesting - 1) _ hfits).mpr (by omega)

-- The loaded manifest is the record with the characters of its texts put together.
theorem loads_manifest (hsound : record.Sound (rt.below 2)) (hwf : Json.Wf (PyData.asJson (.dict record.settings)))
    (hchars : Json.AllChars (fun c => c.isSurrogate = false) (PyData.asJson (.dict record.settings))) (text : PyStr)
    (h : Json.encode defaultStyle rt.nesting (.obj record.fields) = .ok text) :
    ∃ loaded, loadsText rt text = .ok loaded ∧ PyData.ofJson loaded = .dict record.reloaded.entries := by
  obtain ⟨hnames, hkeys⟩ := fields_names record
  have hreads : Json.ReadsAs (Json.parseValue rt.nesting) text
      (.obj (record.fields.map fun f => (f.1, rejoin f.2))) := by
    cases hnesting : rt.nesting with
    | zero =>
        rw [hnesting] at h
        cases h
    | succ limit =>
        rw [hnesting] at h
        exact Json.obj_readsAs defaultStyle rfl limit record.fields rejoin hnames hkeys
          (fun f hf => field_readsAs record hwf hchars f hf limit) text h
  have hloads := Json.loads_readsAs rt.nesting text [] [] _ hreads (by simp) (by simp)
  rw [List.nil_append, List.append_nil] at hloads
  refine ⟨_, (loadsText_eq_ok _ _ _).mpr hloads, ?_⟩
  have hsettings : record.settingsDigest.length = 64 ∧ record.settingsDigest.all isHexChar = true := by
    obtain ⟨bytes, -, hdigest⟩ := hsound.settings
    rw [← hdigest]
    exact sha256Hex_isDigest (rt.below 2) bytes
  have hform : PyData.ofJson (.obj (record.fields.map fun f => (f.1, rejoin f.2))) =
      .dict { record.reloaded with
        modelDigest := Json.joinPairs record.modelDigest
        tokenizerDigest := Json.joinPairs record.tokenizerDigest
        runtimeDigest := Json.joinPairs record.runtimeDigest
        inputDigest := Json.joinPairs record.inputDigest
        outputDigest := Json.joinPairs record.outputDigest
        settingsDigest := Json.joinPairs record.settingsDigest : RunRecord }.entries := rfl
  rw [hform, joinPairs_digest _ hsound.modelDigest, joinPairs_digest _ hsound.tokenizerDigest,
    joinPairs_digest _ hsound.runtimeDigest, joinPairs_digest _ hsound.inputDigest,
    joinPairs_digest _ hsound.outputDigest, joinPairs_digest _ hsettings]
  rfl

end Loading

section Transport

-- The arguments whose manifest can be sent: the settings leave room for the frame of
-- `verify_exact_replay` above the validation and have their keys in the order of the names, the
-- seed can be printed, and no text has the halves of one character in it.
structure Portable (args : RunArgs) : Prop where
  nesting : Json.depth args.parameters.asJson < rt.nesting
  seed : ∀ n, args.seed = .int n → (natText n.natAbs).length ≤ Json.maxIntDigits
  precision : ∀ s, args.precision = .str s → Json.NoPair s
  backend : ∀ s, args.backend = .str s → Json.NoPair s
  keys : args.parameters.InOrder

theorem portable_iff (args : RunArgs) (record : RunRecord) (h : BuiltFrom rt args record) :
    Portable rt args ↔ (natText record.seed).length ≤ Json.maxIntDigits ∧
      Json.depth (PyData.asJson (.dict record.settings)) < rt.nesting ∧
      Json.joinPairs record.precision = record.precision ∧ Json.joinPairs record.backend = record.backend ∧
      (PyData.dict record.settings).InOrder := by
  rw [Json.joinPairs_eq_iff, Json.joinPairs_eq_iff]
  constructor
  · rintro ⟨hnesting, hseed, hprecision, hbackend, hkeys⟩
    rw [h.parameters] at hnesting hkeys
    exact ⟨hseed _ h.seed, hnesting, hprecision _ h.precision, hbackend _ h.backend, hkeys⟩
  · rintro ⟨hseed, hnesting, hprecision, hbackend, hkeys⟩
    rw [← h.parameters] at hnesting hkeys
    refine ⟨hnesting, fun n hn => ?_, fun s hs => ?_, fun s hs => ?_, hkeys⟩
    · obtain rfl := PyData.int.inj (h.seed.symm.trans hn)
      exact hseed
    · obtain rfl := PyData.str.inj (h.precision.symm.trans hs)
      exact hprecision
    · obtain rfl := PyData.str.inj (h.backend.symm.trans hs)
      exact hbackend

-- The loaded record is valid when its settings still have the digest and its texts are the same.
theorem reloaded_sound (record : RunRecord) (hsound : record.Sound rt)
    (hunique : (PyData.dict record.settings).UniqueKeys)
    (hprecision : Json.joinPairs record.precision = record.precision)
    (hbackend : Json.joinPairs record.backend = record.backend) (hkeys : (PyData.dict record.settings).InOrder) :
    record.reloaded.Sound rt := by
  obtain ⟨bytes, hbytes, hdigest⟩ := hsound.settings
  have hsettings := (canonicalJson_eq_iff rt (.dict record.settings) bytes hunique hbytes).mpr hkeys
  refine ⟨hsound.modelDigest, hsound.tokenizerDigest, hsound.runtimeDigest, hsound.inputDigest,
    hsound.outputDigest, ⟨bytes, hsettings, hdigest⟩, ?_, ?_⟩
  · rw [RunRecord.reloaded, hprecision]
    exact hsound.precision
  · rw [RunRecord.reloaded, hbackend]
    exact hsound.backend

-- The comparison validates both records one frame further down.
theorem reloaded_exact_iff (record : RunRecord) (hsound : record.Sound rt)
    (hunique : (PyData.dict record.settings).UniqueKeys) (hsha : rt.CollisionFree (record.settingsTexts rt)) :
    (∃ accepted verdict, validateRunManifest rt (.dict record.reloaded.entries) = .ok accepted ∧
      verifyExactReplay (rt.below 1) (.dict record.entries) (.dict record.reloaded.entries) = .ok verdict ∧
        verdict.status = .verifiedExact) ↔
      Json.depth (PyData.asJson (.dict record.settings)) < rt.nesting ∧
        Json.joinPairs record.precision = record.precision ∧ Json.joinPairs record.backend = record.backend ∧
        (PyData.dict record.settings).InOrder := by
  obtain ⟨bytes, hbytes, hdigest⟩ := hsound.settings
  have hsettings := canonicalJson_eq_iff rt (.dict record.settings) bytes hunique hbytes
  have hpos := depth_settings_pos record
  constructor
  · rintro ⟨accepted, verdict, haccepted, hverdict, hstatus⟩
    have hreloaded := validate_entries_eq_ok rt record.reloaded accepted haccepted
    obtain ⟨reference, hreference, hverdict⟩ := (bind_eq_ok _ _ _).mp hverdict
    obtain ⟨replay, hreplay, hverdict⟩ := (bind_eq_ok _ _ _).mp hverdict
    have hbelow := validate_entries_eq_ok (rt.below 1) record reference hreference
    rw [validate_entries (rt.below 1) record hbelow] at hreference
    rw [validate_entries (rt.below 1) _ (validate_entries_eq_ok (rt.below 1) record.reloaded replay hreplay)]
      at hreplay
    obtain rfl := Except.ok.inj hreference
    obtain rfl := Except.ok.inj hreplay
    obtain rfl := Except.ok.inj hverdict
    have hdepth : Json.depth (PyData.asJson (.dict record.settings)) ≤ (rt.below 1).nesting := by
      obtain ⟨text, htext, -⟩ := hbelow.settings
      have hfits := (canonicalJson_form (rt.below 1) _ text hunique htext).1
      exact (Json.fits_iff_depth true _ _ _ hfits).mp hfits
    rw [Runtime.below_nesting] at hdepth
    rw [compareRecords_status] at hstatus
    split at hstatus
    · next hsame =>
        obtain ⟨-, -, -, -, -, -, hprecision, hbackend⟩ := (firstDifference_eq_none _ _).mp hsame
        obtain ⟨bytes', hbytes', hdigest'⟩ := hreloaded.settings
        have hequal : bytes' = bytes := hsha.eq (.inr hbytes') (.inl hbytes) (hdigest'.trans hdigest.symm)
        rw [hequal] at hbytes'
        exact ⟨by omega, hprecision.symm, hbackend.symm, hsettings.mp hbytes'⟩
    · cases hstatus
  · rintro ⟨hdepth, hprecision, hbackend, hkeys⟩
    have hreloaded := reloaded_sound rt record hsound hunique hprecision hbackend hkeys
    have hbelow : record.Sound (rt.below 1) := by
      refine { hsound with settings := ⟨bytes, ?_, hdigest⟩ }
      refine canonicalJson_room rt _ bytes hunique hbytes (rt.below 1) ?_
      rw [Runtime.below_nesting]
      omega
    have hreplay := reloaded_sound (rt.below 1) record hbelow hunique hprecision hbackend hkeys
    have hsame : firstDifference record record.reloaded = none :=
      (firstDifference_eq_none _ _).mpr ⟨rfl, rfl, rfl, rfl, rfl, rfl, hprecision.symm, hbackend.symm⟩
    refine ⟨record.reloaded, compareRecords record record.reloaded, validate_entries rt _ hreloaded, ?_, ?_⟩
    · rw [verifyExactReplay, validate_entries (rt.below 1) record hbelow, validate_entries (rt.below 1) _ hreplay,
        ok_bind, ok_bind]
    · rw [compareRecords_status, if_pos hsame]
      exact if_pos rfl

end Transport

section Sample

def sampleRunArgs (settings : List (PyData × PyData)) : RunArgs where
  modelDigest := .str (List.replicate 64 (cp 'a'))
  tokenizerDigest := .str (List.replicate 64 (cp 'b'))
  runtimeDigest := .str (List.replicate 64 (cp 'c'))
  inputBytes := .bytes prompt
  outputBytes := .bytes echo
  seed := .int 7
  parameters := .dict settings
  precision := .str (py "fp16")
  backend := .str (py "cpu-reference")

def sampleRun (settings : List (PyData × PyData)) (text : Bytes) : RunRecord where
  modelDigest := List.replicate 64 (cp 'a')
  tokenizerDigest := List.replicate 64 (cp 'b')
  runtimeDigest := List.replicate 64 (cp 'c')
  inputDigest := rt.sha256Hex prompt
  outputDigest := rt.sha256Hex echo
  settings := settings
  settingsDigest := rt.sha256Hex text
  seed := 7
  precision := py "fp16"
  backend := py "cpu-reference"

theorem sample_build (settings : List (PyData × PyData)) (text : Bytes)
    (h : canonicalJson rt (.dict settings) = .ok text) :
    buildRunManifest rt (sampleRunArgs settings) = .ok (sampleRun rt settings text) := by
  have hdigest : ∀ (name : String) (c : CodePoint), isHexChar c = true →
      validateDigest name (.str (List.replicate 64 c)) = .ok (List.replicate 64 c) := fun name c hc =>
    validateDigest_ok name _ ⟨List.length_replicate, List.all_eq_true.mpr fun d hd => List.eq_of_mem_replicate hd ▸ hc⟩
  simp only [buildRunManifest, sampleRunArgs, hdigest _ _ (show isHexChar (cp 'a') = true by decide),
    hdigest _ _ (show isHexChar (cp 'b') = true by decide), hdigest _ _ (show isHexChar (cp 'c') = true by decide),
    requireMapping, requireText_ok (py "fp16") _ (by decide),
    requireText_ok (py "cpu-reference") _ (by decide), h, sha256Bytes, ok_bind]
  rfl

def sampleSettings : List (PyData × PyData) := [(.str (py "temperature"), .int 0)]

-- SHA-256 of the settings with the keys in the order of the numbers, and in that of their names.
def numberDigest : Digest :=
  ⟨[15, 168, 211, 204, 180, 157, 56, 167, 145, 230, 149, 94, 250, 120, 94, 221, 217, 128, 179, 237, 186, 80, 180,
    178, 80, 42, 167, 120, 171, 174, 42, 27], rfl⟩

def nameDigest : Digest :=
  ⟨[132, 122, 252, 1, 126, 58, 172, 106, 159, 152, 68, 207, 154, 143, 37, 247, 127, 182, 170, 47, 65, 177, 151,
    38, 216, 14, 32, 90, 123, 69, 150, 210], rfl⟩

def numberText : Bytes := (utf8Encode (py "\x7b\"2\":\"a\",\"10\":\"b\"\x7d")).getD []

def nameText : Bytes := (utf8Encode (py "\x7b\"10\":\"b\",\"2\":\"a\"\x7d")).getD []

def numberRuntime : Runtime where
  sha256 m :=
    if m = prompt then promptDigest
    else if m = echo then echoDigest
    else if m = numberText then numberDigest
    else if m = nameText then nameDigest
    else zeroDigest
  printable _ := true
  nesting := 100

def numberSettings : List (PyData × PyData) := [(.int 2, .str (py "a")), (.int 10, .str (py "b"))]

end Sample

end V91Core.ModelRun
