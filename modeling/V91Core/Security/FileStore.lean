import V91Core.Effect.Run
import V91Core.Ledger.Data
import V91Core.Python.ReadText

namespace V91Core.Security

open V91Core.Python V91Core.Effect V91Core.Ledger

section Model

-- `os.fsencode` on POSIX: UTF-8, where an escaped surrogate is the byte that it stands for.
def fsEncodeChar (c : CodePoint) : Option Bytes :=
  if 0xDC80 ≤ c.val ∧ c.val < 0xDD00 then some [.ofNat (c.val - 0xDC00)] else utf8EncodeChar c

def fsEncode : PyStr → Option Bytes
  | [] => some []
  | c :: s => do
      let head ← fsEncodeChar c
      let tail ← fsEncode s
      some (head ++ tail)

def secretError (msg : PyStr) : PyExc := .secretStoreError msg

-- `_path`, without the directory of the store.
def secretPath : PyData → Except PyExc PyStr
  | .str name =>
      if strip name = [] ∨ cp '/' ∈ name ∨ cp '\\' ∈ name then .error (secretError (py "Ungueltiger Secret-Name"))
      else .ok (name ++ py ".secret")
  | _ => .error (secretError (py "Ungueltiger Secret-Name"))

-- The name that the operating system gets.
def systemName (path : PyStr) : Except PyExc Bytes := do
  let bytes ← ofOption .unicodeEncode (fsEncode path)
  if 0 ∈ bytes then .error (.valueError (py "embedded null byte")) else .ok bytes

-- The directory of the store: the contents of its files.
abbrev SecretFiles := Bytes → Option Bytes

def noSecret (name : PyStr) : PyExc := secretError (py "Secret '" ++ name ++ py "' existiert nicht")

def emptySecret (name : PyStr) : PyExc := secretError (py "Secret '" ++ name ++ py "' ist leer")

-- What is left in the file that has been opened, and so emptied, for writing.
def writeSecret (value : PyStr) (fault : Option FileFault) : Except PyExc Unit × Bytes :=
  match encodeUtf8 value, fault with
  | .error e, _ => (.error e, [])
  | .ok bytes, some (.writing written e) => (.error e, bytes.take written)
  | .ok bytes, _ => (.ok (), bytes)

-- The `os.open` and `with` block of `store`.
def storeAt (files : SecretFiles) (path : Bytes) (text : PyStr) (fault : Option FileFault) :
    Except PyExc Unit × SecretFiles :=
  match fault with
  | some (.opening e) => (.error e, files)
  | fault => ((writeSecret text fault).1, Function.update files path (some (writeSecret text fault).2))

-- `store`, where `fault` is the file operation that fails.
def FileSecretStore.store (files : SecretFiles) (name value : PyData) (fault : Option FileFault) :
    Except PyExc Unit × SecretFiles :=
  match value with
  | .str text =>
      if text = [] then (.error (secretError (py "Secret darf nicht leer sein")), files)
      else match secretPath name >>= systemName with
        | .error e => (.error e, files)
        | .ok path => storeAt files path text fault
  | _ => (.error (secretError (py "Secret darf nicht leer sein")), files)

-- The end of `read`.
def readSecret (name : PyStr) (content : Bytes) : Except PyExc PyStr := do
  let value ← readText content
  if value = [] then .error (emptySecret name) else .ok value

-- `read`: a path that the system does not take is a path at which no file exists.
def FileSecretStore.read (files : SecretFiles) : PyData → Except PyExc PyStr
  | .str name => do
      let path ← secretPath (.str name)
      match (systemName path).toOption.bind files with
      | none => .error (noSecret name)
      | some content => readSecret name content
  | _ => .error (secretError (py "Ungueltiger Secret-Name"))

end Model

section Cases

-- The call gets as far as the file at this path.
structure Opens (name value : PyData) (fault : Option FileFault) (label text : PyStr) (path : Bytes) : Prop where
  name : name = .str label
  value : value = .str text
  nonempty : text ≠ []
  path : (secretPath (.str label) >>= systemName) = .ok path
  opened : ∀ e, fault ≠ some (.opening e)

theorem read_at (files : SecretFiles) (label : PyStr) (path : Bytes)
    (hpath : (secretPath (.str label) >>= systemName) = .ok path) :
    FileSecretStore.read files (.str label) =
      match files path with
      | none => .error (noSecret label)
      | some content => readSecret label content := by
  obtain ⟨text, htext, hsystem⟩ := (bind_eq_ok _ _ _).mp hpath
  rw [FileSecretStore.read, htext]
  change (match (systemName text).toOption.bind files with | none => _ | some content => _) = _
  rw [hsystem]
  rfl

-- A name that cannot be a path has no file.
theorem read_nowhere (files files' : SecretFiles) (label : PyStr) (e : PyExc)
    (hpath : (secretPath (.str label) >>= systemName) = .error e) :
    FileSecretStore.read files (.str label) = FileSecretStore.read files' (.str label) := by
  rw [FileSecretStore.read, FileSecretStore.read]
  cases htext : secretPath (.str label) with
  | error e => rfl
  | ok text =>
      rw [htext] at hpath
      have hsystem : systemName text = .error e := hpath
      change (match (systemName text).toOption.bind files with | none => _ | some content => _) =
        (match (systemName text).toOption.bind files' with | none => _ | some content => _)
      rw [hsystem]
      rfl

variable (files : SecretFiles) (name value : PyData) (fault : Option FileFault)

-- A call writes the file of its name, or it does nothing.
theorem store_cases : (∃ label text path, Opens name value fault label text path ∧
      FileSecretStore.store files name value fault =
        ((writeSecret text fault).1, Function.update files path (some (writeSecret text fault).2))) ∨
    (∀ label text path, ¬ Opens name value fault label text path) ∧
      ∃ e, FileSecretStore.store files name value fault = (.error e, files) := by
  cases value with
  | str text =>
      unfold FileSecretStore.store
      by_cases hempty : text = []
      · simp only [if_pos hempty]
        refine .inr ⟨fun label text' path h => h.nonempty ?_, _, rfl⟩
        rw [← PyData.str.inj h.value, hempty]
      · simp only [if_neg hempty]
        cases hpath : secretPath name >>= systemName with
        | error e =>
            refine .inr ⟨fun label text' path h => ?_, e, rfl⟩
            rw [h.name, h.path] at hpath
            cases hpath
        | ok path =>
            obtain ⟨label, rfl⟩ : ∃ label, name = .str label := by
              cases name with
              | str label => exact ⟨label, rfl⟩
              | _ => cases hpath
            cases fault with
            | none => exact .inl ⟨label, text, path, ⟨rfl, rfl, hempty, hpath, nofun⟩, rfl⟩
            | some fault =>
                cases fault with
                | opening e => exact .inr ⟨fun _ _ _ h => h.opened e rfl, e, rfl⟩
                | writing written e => exact .inl ⟨label, text, path, ⟨rfl, rfl, hempty, hpath, nofun⟩, rfl⟩
  | _ => exact .inr ⟨fun label text path h => (nomatch h.value), _, rfl⟩

end Cases

section Rejected

-- A call that has opened the file fails: the value has no encoding, or the write fails.
def Fails (text : PyStr) (fault : Option FileFault) : Prop :=
  utf8Encode text = none ∨ ∃ written e, fault = some (.writing written e)

-- An old content that a failing call overwrites with something that reads the same.
inductive Harmless (old : Bytes) (text : PyStr) (fault : Option FileFault) : Prop
  -- nothing is written, and the file was empty
  | refused (hvalue : utf8Encode text = none) (hold : old = [])
  -- a beginning of the value is written, and it was the text of the file, up to the line ends
  | begun (bytes : Bytes) (written : Nat) (e : PyExc) (begun rest : PyStr) (hvalue : utf8Encode text = some bytes)
      (hfault : fault = some (.writing written e)) (hbegun : text = begun ++ rest)
      (hwritten : utf8Encode begun = some (bytes.take written))
      (hold : decodedText old = some (universalNewlines false begun))
  -- what is written ends within a character, and the file was no text either
  | torn (bytes : Bytes) (written : Nat) (e : PyExc) (hvalue : utf8Encode text = some bytes)
      (hfault : fault = some (.writing written e)) (hwritten : utf8Decode false (bytes.take written) = none)
      (hold : decodedText old = none)

theorem universalNewlines_ne_nil (s : PyStr) (h : s ≠ []) : universalNewlines false s ≠ [] := by
  cases s with
  | nil => exact absurd rfl h
  | cons c s =>
      rw [universalNewlines, Bool.and_false, if_neg Bool.false_ne_true]
      split
      · exact List.cons_ne_nil _ _
      · exact List.cons_ne_nil _ _

-- Only an empty file has an empty text.
theorem decodedText_eq_nil (content : Bytes) : decodedText content = some [] ↔ content = [] := by
  constructor
  · intro h
    obtain ⟨text, htext, hnil⟩ := Option.map_eq_some_iff.mp h
    by_contra hne
    obtain ⟨b, bs, rfl⟩ := List.exists_cons_of_ne_nil hne
    rw [utf8Decode, List.length_cons, decodeWith] at htext
    · split at htext
      · obtain ⟨rest, -, rfl⟩ := Option.map_eq_some_iff.mp htext
        exact universalNewlines_ne_nil _ (List.cons_ne_nil _ _) hnil
      · cases htext
    · exact List.cons_ne_nil b bs
  · rintro rfl
    rfl

theorem writeSecret_fails (text : PyStr) (fault : Option FileFault) :
    (∃ e, (writeSecret text fault).1 = .error e) ↔ Fails text fault := by
  unfold writeSecret Fails encodeUtf8
  cases utf8Encode text with
  | none => simp [ofOption]
  | some bytes =>
      cases fault with
      | none => simp [ofOption]
      | some fault =>
          cases fault with
          | opening e => simp [ofOption]
          | writing written e => simp [ofOption]

theorem harmless_iff (old : Bytes) (text : PyStr) (fault : Option FileFault) (h : Fails text fault) :
    Harmless old text fault ↔ decodedText old = decodedText (writeSecret text fault).2 := by
  have hbegun : ∀ begun written, utf8Encode begun = some written →
      decodedText written = some (universalNewlines false begun) := by
    intro begun written hwritten
    rw [decodedText, utf8Decode_encode false begun written hwritten]
    rfl
  have htorn : ∀ written, utf8Decode false written = none → decodedText written = none := by
    intro written hwritten
    rw [decodedText, hwritten]
    rfl
  cases hvalue : utf8Encode text with
  | none =>
      have hleft : (writeSecret text fault).2 = [] := by simp [writeSecret, encodeUtf8, hvalue, ofOption]
      rw [hleft, (decodedText_eq_nil []).mpr rfl, decodedText_eq_nil]
      constructor
      · intro hharmless
        cases hharmless with
        | refused _ hold => exact hold
        | begun _ _ _ _ _ hother => cases hvalue.symm.trans hother
        | torn _ _ _ hother => cases hvalue.symm.trans hother
      · exact .refused hvalue
  | some bytes =>
      obtain ⟨written, e, rfl⟩ := h.resolve_left (by simp [hvalue])
      have hleft : (writeSecret text (some (.writing written e))).2 = bytes.take written := by
        simp [writeSecret, encodeUtf8, hvalue, ofOption]
      rw [hleft]
      constructor
      · intro hharmless
        cases hharmless with
        | refused hother _ => cases hvalue.symm.trans hother
        | begun _ _ _ begun rest hother hfault _ hwritten hold =>
            obtain rfl := Option.some.inj (hvalue.symm.trans hother)
            obtain ⟨rfl, rfl⟩ := FileFault.writing.inj (Option.some.inj hfault)
            rw [hold, hbegun begun _ hwritten]
        | torn _ _ _ hother hfault hwritten hold =>
            obtain rfl := Option.some.inj (hvalue.symm.trans hother)
            obtain ⟨rfl, rfl⟩ := FileFault.writing.inj (Option.some.inj hfault)
            rw [hold, htorn _ hwritten]
      · intro hsame
        rcases utf8Encode_take false text bytes hvalue written with ⟨begun, rest, hsplit, hwritten⟩ | hwritten
        · exact .begun bytes written e begun rest hvalue rfl hsplit hwritten (hsame.trans (hbegun begun _ hwritten))
        · exact .torn bytes written e hvalue rfl hwritten (hsame.trans (htorn _ hwritten))

theorem readSecret_eq (label : PyStr) (content : Bytes) : readSecret label content =
    match decodedText content with
    | none => .error .unicodeDecode
    | some text => if text = [] then .error (emptySecret label) else .ok text := by
  rw [readSecret, readText]
  cases decodedText content with
  | none => rfl
  | some text => rfl

-- What is read of a file is decided by its text.
theorem readSecret_eq_iff (label : PyStr) (content content' : Bytes) :
    readSecret label content = readSecret label content' ↔ decodedText content = decodedText content' := by
  rw [readSecret_eq, readSecret_eq]
  have hmessage : emptySecret label ≠ .unicodeDecode := by simp [emptySecret, secretError]
  cases decodedText content with
  | none =>
      cases decodedText content' with
      | none => simp
      | some text =>
          by_cases hempty : text = []
          · simp [hempty, Ne.symm hmessage]
          · simp [hempty]
  | some text =>
      cases decodedText content' with
      | none =>
          by_cases hempty : text = []
          · simp [hempty, hmessage]
          · simp [hempty]
      | some text' =>
          by_cases hempty : text = []
          · by_cases hempty' : text' = []
            · simp [hempty, hempty']
            · simp [hempty, hempty', Ne.symm hempty']
          · by_cases hempty' : text' = []
            · simp [hempty, hempty']
            · simp [hempty, hempty']

-- The message for a missing file is not the one for an empty file.
theorem readSecret_ne_noSecret (label : PyStr) (content : Bytes) :
    readSecret label content ≠ .error (noSecret label) := by
  intro h
  rw [readSecret, readText] at h
  cases htext : decodedText content with
  | none =>
      rw [htext] at h
      cases h
  | some text =>
      rw [htext] at h
      change (if text = [] then _ else _) = _ at h
      split at h
      · have hmsg := PyExc.secretStoreError.inj (Except.error.inj h)
        rw [List.append_assoc, List.append_assoc] at hmsg
        have hends := List.append_cancel_left (List.append_cancel_left hmsg)
        exact absurd hends (by decide)
      · cases h

variable (files : SecretFiles) (name value : PyData) (fault : Option FileFault)

def sampleSecrets : SecretFiles :=
  Function.update (fun _ => none) ((fsEncode (py "api.secret")).getD []) (utf8Encode (py "old-secret"))

end Rejected

section Names

theorem fsEncode_append (s t : PyStr) :
    fsEncode (s ++ t) = (fsEncode s).bind fun a => (fsEncode t).map (a ++ ·) := by
  induction s with
  | nil => simp [fsEncode]
  | cons c s ih =>
      rw [List.cons_append, fsEncode, fsEncode, ih]
      cases fsEncodeChar c with
      | none => rfl
      | some head =>
          cases fsEncode s with
          | none => rfl
          | some tail =>
              cases fsEncode t with
              | none => rfl
              | some rest => simp

-- Without surrogates it is plain UTF-8.
theorem fsEncode_eq (s : PyStr) (h : ∀ c ∈ s, c.isSurrogate = false) : fsEncode s = utf8Encode s := by
  induction s with
  | nil => rfl
  | cons c s ih =>
      obtain ⟨hc, hs⟩ := List.forall_mem_cons.mp h
      have hplain : fsEncodeChar c = utf8EncodeChar c := by
        rw [fsEncodeChar, if_neg]
        intro hescaped
        simp only [CodePoint.isSurrogate, Bool.and_eq_false_iff, decide_eq_false_iff_not] at hc
        omega
      rw [fsEncode, hplain, ih hs, utf8Encode]
      cases utf8EncodeChar c with
      | none => rfl
      | some head =>
          cases utf8Encode s with
          | none => rfl
          | some tail => rfl

theorem systemName_eq_ok (label : PyStr) (path : Bytes) (h : (secretPath (.str label) >>= systemName) = .ok path) :
    fsEncode (label ++ py ".secret") = some path := by
  obtain ⟨text, htext, hsystem⟩ := (bind_eq_ok _ _ _).mp h
  rw [secretPath] at htext
  split at htext
  · cases htext
  · obtain rfl := Except.ok.inj htext
    obtain ⟨bytes, hbytes, hnul⟩ := (bind_eq_ok _ _ _).mp hsystem
    split at hnul
    · cases hnul
    · obtain rfl := Except.ok.inj hnul
      cases hencode : fsEncode (label ++ py ".secret") with
      | none =>
          rw [hencode] at hbytes
          cases hbytes
      | some bytes' =>
          rw [hencode] at hbytes
          exact congrArg some (Except.ok.inj hbytes)

-- Two names that lead to the same file.
def SameFile (m n : PyStr) : Prop :=
  ∃ path, (secretPath (.str m) >>= systemName) = .ok path ∧ (secretPath (.str n) >>= systemName) = .ok path

-- Names without surrogates have files of their own.
theorem eq_of_sameFile (m n : PyStr) (h : SameFile m n) (hm : ∀ c ∈ m, c.isSurrogate = false)
    (hn : ∀ c ∈ n, c.isSurrogate = false) : m = n := by
  obtain ⟨path, hmpath, hnpath⟩ := h
  have hsplit : ∀ label, (secretPath (.str label) >>= systemName) = .ok path →
      ∃ bytes suffix, fsEncode label = some bytes ∧ fsEncode (py ".secret") = some suffix ∧ path = bytes ++ suffix := by
    intro label hlabel
    have hpath := systemName_eq_ok label path hlabel
    rw [fsEncode_append] at hpath
    obtain ⟨bytes, hbytes, hrest⟩ := Option.bind_eq_some_iff.mp hpath
    obtain ⟨suffix, hsuffix, hjoined⟩ := Option.map_eq_some_iff.mp hrest
    exact ⟨bytes, suffix, hbytes, hsuffix, hjoined.symm⟩
  obtain ⟨bytes, suffix, hbytes, hsuffix, rfl⟩ := hsplit m hmpath
  obtain ⟨bytes', suffix', hbytes', hsuffix', hsame⟩ := hsplit n hnpath
  obtain rfl := Option.some.inj (hsuffix.symm.trans hsuffix')
  obtain rfl := List.append_cancel_right hsame
  rw [fsEncode_eq m hm] at hbytes
  rw [fsEncode_eq n hn] at hbytes'
  exact utf8Encode_injective m n bytes hbytes hbytes'

end Names

section RoundTrip

structure StoreCall where
  name : PyStr
  value : PyStr

def step (files : SecretFiles) (call : StoreCall) : SecretFiles :=
  (FileSecretStore.store files (.str call.name) (.str call.value) none).2

def Returns (files : SecretFiles) (call : StoreCall) : Prop :=
  (FileSecretStore.store files (.str call.name) (.str call.value) none).1 = .ok ()

-- The store as it is meant: the last value for each name.
abbrev Secrets := PyStr → Option PyStr

def remember (secrets : Secrets) (call : StoreCall) : Secrets := Function.update secrets call.name (some call.value)

def lastStored (calls : List StoreCall) : Secrets := runFrom remember (fun _ => none) calls

-- A store leaves what is read under the other names.
def KeepsOthers (names : Set PyStr) (files : SecretFiles) (call : StoreCall) : Prop :=
  ∀ other ∈ names, other ≠ call.name →
    FileSecretStore.read (step files call) (.str other) = FileSecretStore.read files (.str other)

-- Every name is read as it has been stored last.
def ReadsBack (files : SecretFiles) (calls : List StoreCall) : Prop :=
  ∀ name value, lastStored calls name = some value →
    FileSecretStore.read (runFrom step files calls) (.str name) = .ok value

theorem writeSecret_none (text : PyStr) : writeSecret text none =
    match encodeUtf8 text with
    | .error e => (.error e, [])
    | .ok bytes => (.ok (), bytes) := by
  unfold writeSecret
  cases encodeUtf8 text with
  | error e => rfl
  | ok bytes => rfl

theorem step_returned (files : SecretFiles) (call : StoreCall) (h : Returns files call) :
    ∃ path bytes, (secretPath (.str call.name) >>= systemName) = .ok path ∧ utf8Encode call.value = some bytes ∧
      call.value ≠ [] ∧ step files call = Function.update files path (some bytes) := by
  rcases store_cases files (.str call.name) (.str call.value) none with
    ⟨label, text, path, hopens, hstore⟩ | ⟨-, e, hstore⟩
  · obtain rfl := PyData.str.inj hopens.name
    obtain rfl := PyData.str.inj hopens.value
    rw [Returns, hstore, writeSecret_none] at h
    cases hencode : encodeUtf8 call.value with
    | error e =>
        rw [hencode] at h
        cases h
    | ok bytes =>
        refine ⟨path, bytes, hopens.path, (encodeUtf8_eq_ok _ _).mp hencode, hopens.nonempty, ?_⟩
        rw [step, hstore, writeSecret_none, hencode]
  · rw [Returns, hstore] at h
    cases h

-- What is read after a store is the value with its line ends translated.
theorem read_stored (files : SecretFiles) (call : StoreCall) (h : Returns files call) (label : PyStr)
    (hlabel : SameFile label call.name) :
    FileSecretStore.read (step files call) (.str label) = .ok (universalNewlines false call.value) := by
  obtain ⟨path, bytes, hpath, hbytes, hvalue, hstep⟩ := step_returned files call h
  obtain ⟨path', hlabelPath, hpath'⟩ := hlabel
  obtain rfl := Except.ok.inj (hpath.symm.trans hpath')
  rw [read_at _ label path hlabelPath, hstep, Function.update_self]
  dsimp only
  rw [readSecret, readText_encode call.value bytes hbytes]
  exact if_neg (universalNewlines_ne_nil call.value hvalue)

theorem sameFile_self (files : SecretFiles) (call : StoreCall) (h : Returns files call) :
    SameFile call.name call.name := by
  obtain ⟨path, -, hpath, -⟩ := step_returned files call h
  exact ⟨path, hpath, hpath⟩

-- The file that a name leads to holds the value already.
def HoldsAlready (files : SecretFiles) (name value : PyStr) : Prop :=
  ∃ path content, (secretPath (.str name) >>= systemName) = .ok path ∧ files path = some content ∧
    decodedText content = some value

-- The value has no carriage return, and where another of the names leads to the same file, the
-- file holds the value already.
structure Untangled (names : Set PyStr) (files : SecretFiles) (call : StoreCall) : Prop where
  plain : cp '\r' ∉ call.value
  shared : ∀ other ∈ names, other ≠ call.name → SameFile other call.name → HoldsAlready files call.name call.value

theorem read_eq_ok_iff (files : SecretFiles) (label name value : PyStr) (hsame : SameFile label name)
    (hvalue : value ≠ []) :
    FileSecretStore.read files (.str label) = .ok value ↔ HoldsAlready files name value := by
  obtain ⟨path, hlabel, hname⟩ := hsame
  rw [read_at files label path hlabel]
  have hcontent : ∀ content, readSecret label content = .ok value ↔ decodedText content = some value := by
    intro content
    rw [readSecret, readText, bind_eq_ok]
    constructor
    · rintro ⟨text, htext, h⟩
      split at h
      · cases h
      · obtain rfl := Except.ok.inj h
        exact (ofOption_eq_ok _ _ _).mp htext
    · intro htext
      exact ⟨value, (ofOption_eq_ok _ _ _).mpr htext, if_neg hvalue⟩
  constructor
  · intro h
    cases hfile : files path with
    | none =>
        rw [hfile] at h
        cases h
    | some content =>
        rw [hfile] at h
        exact ⟨path, content, hname, hfile, (hcontent content).mp h⟩
  · rintro ⟨path', content, hpath, hfile, htext⟩
    obtain rfl := Except.ok.inj (hname.symm.trans hpath)
    rw [hfile]
    exact (hcontent content).mpr htext

-- A store of a plain value keeps the other names exactly when those that share its file read
-- the value already.
theorem keepsOthers_iff (names : Set PyStr) (files : SecretFiles) (call : StoreCall) (h : Returns files call)
    (hplain : cp '\r' ∉ call.value) : KeepsOthers names files call ↔ Untangled names files call := by
  obtain ⟨path, bytes, hpath, hbytes, hvalue, hstep⟩ := step_returned files call h
  have hafter : ∀ other, SameFile other call.name →
      FileSecretStore.read (step files call) (.str other) = .ok call.value := by
    intro other hsame
    rw [read_stored files call h other hsame, universalNewlines_id _ hplain]
  constructor
  · intro hkept
    refine ⟨hplain, fun other hother hne hsame => ?_⟩
    have hbefore := (hkept other hother hne).symm.trans (hafter other hsame)
    exact (read_eq_ok_iff files other call.name call.value hsame hvalue).mp hbefore
  · intro huntangled other hother hne
    cases hotherPath : secretPath (.str other) >>= systemName with
    | error e => exact read_nowhere _ _ other e hotherPath
    | ok otherPath =>
        by_cases hsame : otherPath = path
        · have hfile : SameFile other call.name := ⟨path, hsame ▸ hotherPath, hpath⟩
          have hholds := huntangled.shared other hother hne hfile
          rw [hafter other hfile, (read_eq_ok_iff files other call.name call.value hfile hvalue).mpr hholds]
        · rw [hstep, read_at _ other otherPath hotherPath, read_at _ other otherPath hotherPath,
            Function.update_of_ne hsame]

theorem lastStored_concat (calls : List StoreCall) (call : StoreCall) :
    lastStored (calls ++ [call]) = Function.update (lastStored calls) call.name (some call.value) :=
  runFrom_concat _ _ _

theorem mem_of_lastStored (calls : List StoreCall) (name value : PyStr) (h : lastStored calls name = some value) :
    ∃ call ∈ calls, call.name = name := by
  induction calls using List.reverseRecOn with
  | nil => cases h
  | append_singleton calls call ih =>
      by_cases hname : call.name = name
      · exact ⟨call, List.mem_append_right _ (List.mem_singleton_self _), hname⟩
      · rw [lastStored_concat, Function.update_of_ne (Ne.symm hname)] at h
        obtain ⟨call', hmem, hname'⟩ := ih h
        exact ⟨call', List.mem_append_left _ hmem, hname'⟩

-- The files hold what the store is meant to hold.
theorem readsBack_of_untangled (names : Set PyStr) (files : SecretFiles) (calls : List StoreCall)
    (hcalls : ∀ call ∈ calls, call.name ∈ names) (hreturned : EachStep step Returns files calls)
    (huntangled : EachStep step (Untangled names) files calls) : ReadsBack files calls := by
  induction calls using List.reverseRecOn with
  | nil => nofun
  | append_singleton calls call ih =>
      obtain ⟨hbefore, hlast, -⟩ := (eachStep_append Returns files calls [call]).mp hreturned
      obtain ⟨hplain, huntangledLast, -⟩ := (eachStep_append (Untangled names) files calls [call]).mp huntangled
      have hfirst := ih (fun c hc => hcalls c (List.mem_append_left _ hc)) hbefore hplain
      intro name value hvalue
      rw [runFrom_concat]
      rw [lastStored_concat] at hvalue
      by_cases hname : name = call.name
      · rw [hname, Function.update_self] at hvalue
        rw [hname, read_stored _ call hlast _ (sameFile_self _ call hlast),
          universalNewlines_id _ huntangledLast.plain, Option.some.inj hvalue]
      · rw [Function.update_of_ne hname] at hvalue
        obtain ⟨call', hmem', rfl⟩ := mem_of_lastStored calls name value hvalue
        have hkept := (keepsOthers_iff names _ call hlast huntangledLast.plain).mpr huntangledLast call'.name
          (hcalls call' (List.mem_append_left _ hmem')) hname
        rw [hkept]
        exact hfirst call'.name value hvalue

-- In a run of stores that return, no store touches another of the names and the values are read
-- back exactly when no value contains a carriage return, and a store under a name that shares
-- its file with another one repeats the value that the file holds.
theorem secrets_read_back_iff (names : Set PyStr) (files : SecretFiles) (calls : List StoreCall)
    (hcalls : ∀ call ∈ calls, call.name ∈ names) (hreturned : EachStep step Returns files calls) :
    (EachStep step (KeepsOthers names) files calls ∧ ∀ before, before <+: calls → ReadsBack files before) ↔
      EachStep step (Untangled names) files calls := by
  have hsplit := (eachStep_iff_split Returns files calls).mp hreturned
  constructor
  · rintro ⟨hkept, hreads⟩
    refine (eachStep_iff_split _ files calls).mpr fun before call hprefix => ?_
    have hlast := hsplit before call hprefix
    have hvalue : lastStored (before ++ [call]) call.name = some call.value := by
      rw [lastStored_concat, Function.update_self]
    have hread := hreads _ hprefix call.name call.value hvalue
    rw [runFrom_concat, read_stored _ call hlast _ (sameFile_self _ call hlast)] at hread
    have hplain : cp '\r' ∉ call.value := by
      intro hcr
      rw [← Except.ok.inj hread] at hcr
      exact universalNewlines_no_cr false call.value _ hcr rfl
    exact (keepsOthers_iff names _ call hlast hplain).mp ((eachStep_iff_split _ files calls).mp hkept
      before call hprefix)
  · intro huntangled
    refine ⟨(eachStep_iff_split _ files calls).mpr fun before call hprefix => ?_, fun before hprefix => ?_⟩
    · have hstep := (eachStep_iff_split _ files calls).mp huntangled before call hprefix
      exact (keepsOthers_iff names _ call (hsplit before call hprefix) hstep.plain).mpr hstep
    · obtain ⟨rest, rfl⟩ := hprefix
      exact readsBack_of_untangled names files before (fun call hc => hcalls call (List.mem_append_left _ hc))
        ((eachStep_append Returns files before rest).mp hreturned).1
        ((eachStep_append (Untangled names) files before rest).mp huntangled).1

def noSecrets : SecretFiles := fun _ => none

-- The letter é, and the two bytes that it is written as, escaped.
def accented : PyStr := [chr 0xE9]

def escaped : PyStr := [chr 0xDCC3, chr 0xDCA9]

-- A carriage return is read as a line feed, and the two spellings of a name share a file.
theorem secrets_not_read_back :
    (FileSecretStore.store noSecrets (.str (py "api")) (.str (py "a\rb")) none).1 = .ok () ∧
      FileSecretStore.read (FileSecretStore.store noSecrets (.str (py "api")) (.str (py "a\rb")) none).2
        (.str (py "api")) = .ok (py "a\nb") ∧
      accented ≠ escaped ∧
      (FileSecretStore.store noSecrets (.str accented) (.str (py "one")) none).1 = .ok () ∧
      FileSecretStore.read noSecrets (.str escaped) = .error (noSecret escaped) ∧
      FileSecretStore.read (FileSecretStore.store noSecrets (.str accented) (.str (py "one")) none).2
        (.str escaped) = .ok (py "one") := by
  decide +kernel

def sampleCalls : List StoreCall :=
  [⟨py "api", py "one"⟩, ⟨accented, py "two"⟩, ⟨py "api", py "three"⟩, ⟨escaped, py "two"⟩]

-- The file that the last two names share holds their value from the start.
def sharedSecrets : SecretFiles :=
  Function.update noSecrets ((fsEncode (accented ++ py ".secret")).getD []) (utf8Encode (py "two"))

def sampleNames : Set PyStr := {py "api", accented, escaped}

theorem untangled_api (files : SecretFiles) (value : PyStr) (h : cp '\r' ∉ value) :
    Untangled sampleNames files ⟨py "api", value⟩ := by
  refine ⟨h, fun other hother hne hsame => ?_⟩
  obtain ⟨path, hotherPath, hpath⟩ := hsame
  have hpaths : (secretPath (.str other) >>= systemName) = (secretPath (.str (py "api")) >>= systemName) :=
    hotherPath.trans hpath.symm
  rcases hother with rfl | rfl | rfl
  · exact absurd rfl hne
  · exact absurd hpaths (by decide +kernel)
  · exact absurd hpaths (by decide +kernel)

theorem secrets_read_back_sample :
    FileSecretStore.read (runFrom step sharedSecrets sampleCalls) (.str (py "api")) = .ok (py "three") ∧
      FileSecretStore.read (runFrom step sharedSecrets sampleCalls) (.str accented) = .ok (py "two") ∧
      FileSecretStore.read (runFrom step sharedSecrets sampleCalls) (.str escaped) = .ok (py "two") := by
  have hcalls : ∀ call ∈ sampleCalls, call.name ∈ sampleNames := by
    simp [sampleCalls, sampleNames]
  have hreturned : EachStep step Returns sharedSecrets sampleCalls := by
    refine ⟨?_, ?_, ?_, ?_, trivial⟩
    all_goals
      rw [Returns]
      decide +kernel
  have hshared : ∀ files name,
      (secretPath (.str name) >>= systemName) = .ok ((fsEncode (accented ++ py ".secret")).getD []) →
      files ((fsEncode (accented ++ py ".secret")).getD []) = utf8Encode (py "two") →
        Untangled sampleNames files ⟨name, py "two"⟩ := by
    intro files name hpath hfile
    have hbytes : utf8Encode (py "two") = some ((utf8Encode (py "two")).getD []) := by decide +kernel
    have htext : decodedText ((utf8Encode (py "two")).getD []) = some (py "two") := by decide +kernel
    have hplain : cp '\r' ∉ py "two" := by decide
    exact ⟨hplain, fun _ _ _ _ => ⟨_, _, hpath, hfile.trans hbytes, htext⟩⟩
  have huntangled : EachStep step (Untangled sampleNames) sharedSecrets sampleCalls := by
    refine ⟨untangled_api _ _ (by decide), hshared _ _ ?_ ?_, untangled_api _ _ (by decide), hshared _ _ ?_ ?_, trivial⟩
    all_goals decide +kernel
  obtain ⟨-, hreads⟩ := (secrets_read_back_iff sampleNames sharedSecrets sampleCalls hcalls hreturned).mpr huntangled
  have hall := hreads sampleCalls (List.prefix_refl _)
  exact ⟨hall (py "api") (py "three") (by decide), hall accented (py "two") (by decide),
    hall escaped (py "two") (by decide)⟩

end RoundTrip

end V91Core.Security
