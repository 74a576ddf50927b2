import V91Core.Effect.Eval
import V91Core.Python.Data
import V91Core.Python.Lower
import Mathlib.Data.List.AList

namespace V91Core.SourceQuality

open V91Core.Python V91Core.Effect

-- `VALID_TRUST_LEVELS`.
inductive Trust where
  | trusted
  | unverified
  | blockedLocal
deriving DecidableEq

def Trust.name : Trust → PyStr
  | .trusted => py "TRUSTED"
  | .unverified => py "UNVERIFIED"
  | .blockedLocal => py "BLOCKED_LOCAL"

inductive VerdictKind where
  | quarantine
  | accept
  | review
deriving DecidableEq

def VerdictKind.name : VerdictKind → PyStr
  | .quarantine => py "QUARANTINE_LOCAL"
  | .accept => py "ACCEPT_LOCAL"
  | .review => py "REVIEW_REQUIRED"

structure SourceVerdict where
  source : PyStr
  trust : Trust
  verdict : VerdictKind
  reason : PyStr
  hasEvidence : Bool
  evidenceSupplied : Bool
  evidenceReferenceValid : Bool
  evidenceIndependent : PyStr
deriving DecidableEq

structure SourceEntry where
  trust : Trust
  note : PyData

-- `_sources`.
abbrev Sources := AList fun _ : PyStr => SourceEntry

structure SourceTrustRegistry where
  sources : Sources

variable (tables : CaseTables)

section Construction

-- `name.strip().lower()`.
def normalName (name : PyStr) : PyStr := lower tables (strip name)

def trustLevel (level : PyStr) : Option Trust :=
  [Trust.trusted, .unverified, .blockedLocal].find? fun trust => trust.name = level

def trustRequired (name : PyStr) : PyExc :=
  .valueError (py "Quelle '" ++ name ++ py "' benoetigt trust in ['BLOCKED_LOCAL', 'TRUSTED', 'UNVERIFIED']")

-- The checks of one entry of `config["sources"]`.
def readSource (name entry : PyData) : Except PyExc (PyStr × SourceEntry) := do
  let name ← ofOption (.valueError (py "Quellenname muss nicht-leer sein")) name.nonBlank?
  match entry with
  | .dict fields => do
      let level ← PyData.lookupKey ((PyData.get? (py "trust") fields).getD .none)
      let trust ← ofOption (trustRequired name) (level.bind trustLevel)
      .ok (name, ⟨trust, (PyData.get? (py "note") fields).getD (.str [])⟩)
  | _ => .error (trustRequired name)

-- The loop of the constructor.
def load (sources : Sources) : List (PyData × PyData) → Except PyExc Sources
  | [] => .ok sources
  | (name, entry) :: rest => do
      let (name, entry) ← readSource name entry
      load (sources.insert (normalName tables name) entry) rest

-- `config["sources"]`, where it is a dict.
def sourcesOf : PyData → Option (List (PyData × PyData))
  | .dict fields =>
      match PyData.get? (py "sources") fields with
      | some (.dict sources) => some sources
      | _ => none
  | _ => none

def SourceTrustRegistry.init (config : PyData) : Except PyExc SourceTrustRegistry := do
  let sources ← ofOption (.valueError (py "Quellen-Vertrauenskonfiguration benoetigt ein 'sources'-Objekt"))
    (sourcesOf config)
  let loaded ← load tables ∅ sources
  .ok ⟨loaded⟩

end Construction

section Classify

variable (registry : SourceTrustRegistry)

-- A source that is a text with more than white space in it.
def SourceTrustRegistry.entryOf (source : PyStr) : Option SourceEntry :=
  registry.sources.lookup (normalName tables source)

def SourceTrustRegistry.trustOf (source : PyData) : Trust :=
  match source.nonBlank? with
  | some source => ((registry.entryOf tables source).map SourceEntry.trust).getD .unverified
  | none => .unverified

def SourceTrustRegistry.noteOf : PyData → PyData
  | .str source => ((registry.entryOf tables source).map SourceEntry.note).getD (.str [])
  | _ => .str []

-- `_VALID_REFERENCE_KINDS`.
def referenceKinds : List PyStr := [py "url", py "doi", py "sha256", py "path", py "citation", py "ledger_id"]

def referencePrefixes : List PyStr := [py "http://", py "https://", py "doi:", py "DOI:", py "/"]

-- `_is_valid_reference`. A stripped text does not end in a line break, so that `$` stands
-- for the end.
def isValidReference : PyData → Bool
  | .dict fields =>
      match PyData.get? (py "kind") fields, PyData.get? (py "value") fields with
      | some (.str kind), some (.str value) => normalName tables kind ∈ referenceKinds && strip value ≠ []
      | _, _ => false
  | .str text =>
      let s := strip text
      s ≠ [] && (referencePrefixes.any (fun start => start.isPrefixOf s) || (s.length = 64 && s.all isHexChar) ||
        py "::" <:+: s)
  | _ => false

-- `evidence is not None and bool(evidence)`.
def isSupplied (evidence : PyData) : Bool := evidence.truthy

def evidenceEntries : PyData → List PyData
  | .list entries | .tuple entries => entries
  | evidence => [evidence]

def independenceUnknown : PyStr := py "UNKNOWN_NOT_VERIFIABLE_LOCALLY"

def verdictOf (trust : Trust) (validateEvidence supplied valid : Bool) : VerdictKind × PyStr :=
  if trust = .blockedLocal then (.quarantine, py "Quelle ist bewusst lokal gesperrt " ++
    py "(eigene Konsumentscheidung, kein Zugriff auf die Quelle selbst).")
  else if trust = .trusted ∧ validateEvidence ∧ valid then
    (.accept, py "Vertrauenswuerdige Quelle mit strukturell gueltiger Evidenz-Referenz; " ++
      py "lokale Aufnahme, kein Wahrheits- oder Unabhaengigkeitsbeweis.")
  else if trust = .trusted ∧ validateEvidence ∧ supplied ∧ !valid then
    (.review, py "EVIDENCE_SUPPLIED != EVIDENCE_VALID: gelieferte Evidenz ist keine strukturell " ++
      py "gueltige Referenz (URL/DOI/SHA-256/Pfad/citation/ledger_id).")
  else if trust = .trusted ∧ !validateEvidence ∧ supplied then
    (.accept, py "Vertrauenswuerdige Quelle mit gelieferter Evidenz (Legacy-Vertrag, unvalidiert); " ++
      py "lokale Aufnahme, kein Wahrheitsbeweis.")
  else if trust = .trusted then
    (.review, py "CLAIM != EVIDENCE: vertrauenswuerdige Quelle, aber keine Evidenz beigefuegt.")
  else (.review, py "Quelle nicht bewusst eingestuft; bleibt zur Pruefung, wird nie still akzeptiert.")

def SourceTrustRegistry.classify (source : PyStr) (evidence : PyData) (validateEvidence : Bool) : SourceVerdict :=
  let trust := registry.trustOf tables (.str source)
  let supplied := isSupplied evidence
  let valid := validateEvidence && supplied && !(evidenceEntries evidence).isEmpty &&
    (evidenceEntries evidence).all (isValidReference tables)
  let (verdict, reason) := verdictOf trust validateEvidence supplied valid
  ⟨source, trust, verdict, reason, supplied, supplied, valid, independenceUnknown⟩

end Classify

section Honoured

-- The configuration names a source with this level of trust.
def Configures (config : PyData) (name : PyStr) (trust : Trust) : Prop :=
  ∃ sources fields, sourcesOf config = some sources ∧ (.str name, .dict fields) ∈ sources ∧
    PyData.get? (py "trust") fields = some (.str trust.name)

-- Every spelling of the name is judged by this level.
def Honoured (registry : SourceTrustRegistry) (name : PyStr) (trust : Trust) : Prop :=
  ∀ spelling, normalName tables spelling = normalName tables name →
    registry.trustOf tables (.str spelling) = trust ∧
      ∀ evidence validateEvidence, (registry.classify tables spelling evidence validateEvidence).trust = trust ∧
        (trust = .blockedLocal → (registry.classify tables spelling evidence validateEvidence).verdict = .quarantine)

theorem trustLevel_eq_some (level : PyStr) (trust : Trust) : trustLevel level = some trust ↔ level = trust.name := by
  constructor
  · intro h
    unfold trustLevel at h
    have hname := List.find?_some h
    exact (of_decide_eq_true hname).symm
  · rintro rfl
    cases trust <;> decide

theorem nonBlank?_str (value : PyData) (text : PyStr) :
    value.nonBlank? = some text ↔ value = .str text ∧ strip text ≠ [] := by
  cases value with
  | str s =>
      by_cases h : strip s = []
      · simp only [PyData.nonBlank?, if_pos h, PyData.str.injEq]
        constructor
        · nofun
        · rintro ⟨rfl, hne⟩
          exact absurd h hne
      · simp only [PyData.nonBlank?, if_neg h, Option.some.injEq, PyData.str.injEq]
        constructor
        · rintro rfl
          exact ⟨rfl, h⟩
        · exact And.left
  | _ => simp [PyData.nonBlank?]

theorem lookupKey_str (value : PyData) (level : PyStr) (h : PyData.lookupKey value = .ok (some level)) :
    value = .str level := by
  unfold PyData.lookupKey at h
  split at h
  · have h := Except.ok.inj h
    cases value with
    | str s => exact congrArg PyData.str (Option.some.inj h)
    | _ => cases h
  · cases h

theorem readSource_eq_ok (key value : PyData) (name : PyStr) (entry : SourceEntry)
    (h : readSource key value = .ok (name, entry)) :
    key = .str name ∧ strip name ≠ [] ∧ ∃ fields, value = .dict fields ∧
      PyData.get? (py "trust") fields = some (.str entry.trust.name) := by
  unfold readSource at h
  obtain ⟨text, htext, h⟩ := (bind_eq_ok _ _ _).mp h
  have hkey := (nonBlank?_str key text).mp ((ofOption_eq_ok _ _ _).mp htext)
  cases value with
  | dict fields =>
      dsimp only at h
      obtain ⟨level, hlevel, h⟩ := (bind_eq_ok _ _ _).mp h
      obtain ⟨trust, htrust, h⟩ := (bind_eq_ok _ _ _).mp h
      obtain ⟨rfl, rfl⟩ := Prod.mk.inj (Except.ok.inj h)
      obtain ⟨level, rfl, hfound⟩ := Option.bind_eq_some_iff.mp ((ofOption_eq_ok _ _ _).mp htrust)
      obtain rfl := (trustLevel_eq_some level trust).mp hfound
      have hvalue := lookupKey_str _ _ hlevel
      refine ⟨hkey.1, hkey.2, fields, rfl, ?_⟩
      cases hget : PyData.get? (py "trust") fields with
      | none =>
          rw [hget] at hvalue
          cases hvalue
      | some value =>
          rw [hget, Option.getD_some] at hvalue
          rw [hvalue]
  | _ => cases h

-- After the loop, a name has the entry of one of the configured names with its spelling,
-- or the one from before.
theorem load_lookup (sources loaded : Sources) (entries : List (PyData × PyData))
    (h : load tables sources entries = .ok loaded) (key : PyStr) :
    (∃ name fields trust, (.str name, .dict fields) ∈ entries ∧ strip name ≠ [] ∧ normalName tables name = key ∧
        PyData.get? (py "trust") fields = some (.str trust.name) ∧
        (loaded.lookup key).map SourceEntry.trust = some trust) ∨
      (∀ name fields, (.str name, .dict fields) ∈ entries → normalName tables name ≠ key) ∧
        loaded.lookup key = sources.lookup key := by
  induction entries generalizing sources with
  | nil =>
      obtain rfl := Except.ok.inj h
      exact .inr ⟨by simp, rfl⟩
  | cons e entries ih =>
      obtain ⟨⟨name, entry⟩, hentry, hload⟩ := (bind_eq_ok _ _ _).mp h
      obtain ⟨hname, hblank, fields, hfields, htrust⟩ := readSource_eq_ok _ _ name entry hentry
      obtain rfl : e = (.str name, .dict fields) := Prod.ext hname hfields
      rcases ih _ hload with ⟨other, fields', trust, hmem, hother⟩ | ⟨hnone, hsame⟩
      · exact .inl ⟨other, fields', trust, List.mem_cons_of_mem _ hmem, hother⟩
      by_cases hkey : normalName tables name = key
      · refine .inl ⟨name, fields, entry.trust, List.mem_cons_self, hblank, hkey, htrust, ?_⟩
        rw [hsame, hkey, AList.lookup_insert]
        rfl
      · refine .inr ⟨fun other fields' hmem => ?_, ?_⟩
        · rcases List.mem_cons.mp hmem with heq | hmem
          · obtain ⟨hother, -⟩ := Prod.mk.inj heq
            rw [PyData.str.inj hother]
            exact hkey
          · exact hnone other fields' hmem
        · rw [hsame, AList.lookup_insert_ne (Ne.symm hkey)]

theorem init_eq_ok (config : PyData) (registry : SourceTrustRegistry)
    (h : SourceTrustRegistry.init tables config = .ok registry) :
    ∃ sources, sourcesOf config = some sources ∧ load tables ∅ sources = .ok registry.sources := by
  unfold SourceTrustRegistry.init at h
  obtain ⟨sources, hsources, h⟩ := (bind_eq_ok _ _ _).mp h
  obtain ⟨loaded, hloaded, h⟩ := (bind_eq_ok _ _ _).mp h
  obtain rfl := Except.ok.inj h
  exact ⟨sources, (ofOption_eq_ok _ _ _).mp hsources, hloaded⟩

-- A configured source has the level of some configured name with its spelling.
theorem lookup_configured (config : PyData) (registry : SourceTrustRegistry)
    (hinit : SourceTrustRegistry.init tables config = .ok registry) (name : PyStr) (trust : Trust)
    (h : Configures config name trust) : ∃ other found, Configures config other found ∧ strip other ≠ [] ∧
      normalName tables other = normalName tables name ∧
      (registry.sources.lookup (normalName tables name)).map SourceEntry.trust = some found := by
  obtain ⟨sources, hsources, hload⟩ := init_eq_ok tables config registry hinit
  obtain ⟨sources', fields, hsources', hmem, -⟩ := h
  obtain rfl := Option.some.inj (hsources.symm.trans hsources')
  rcases load_lookup tables ∅ registry.sources sources hload (normalName tables name) with
    ⟨other, fields', found, hother, hblank, hkey, htrust, hlookup⟩ | ⟨hnone, -⟩
  · exact ⟨other, found, ⟨sources, fields', hsources, hother, htrust⟩, hblank, hkey, hlookup⟩
  · exact absurd rfl (hnone name fields hmem)

theorem verdictOf_blocked (validateEvidence supplied valid : Bool) :
    (verdictOf .blockedLocal validateEvidence supplied valid).1 = .quarantine := by
  rw [verdictOf, if_pos rfl]

-- What a spelling with an entry is judged by.
theorem honoured_iff (registry : SourceTrustRegistry) (name other : PyStr) (trust found : Trust)
    (hblank : strip other ≠ []) (hkey : normalName tables other = normalName tables name)
    (hlookup : (registry.sources.lookup (normalName tables name)).map SourceEntry.trust = some found) :
    Honoured tables registry name trust ↔ found = trust := by
  have htrust : ∀ spelling, normalName tables spelling = normalName tables name →
      registry.trustOf tables (.str spelling) = found := by
    intro spelling hspelling
    have hne : strip spelling ≠ [] := by
      intro hnil
      rw [normalName, hnil, ← hkey, normalName, (lower_eq_nil_iff tables []).mpr rfl] at hspelling
      exact hblank ((lower_eq_nil_iff tables _).mp hspelling.symm)
    rw [SourceTrustRegistry.trustOf, (nonBlank?_str (.str spelling) spelling).mpr ⟨rfl, hne⟩]
    dsimp only
    rw [SourceTrustRegistry.entryOf, hspelling, hlookup, Option.getD_some]
  constructor
  · intro h
    rw [← htrust name rfl]
    exact (h name rfl).1
  · rintro rfl spelling hspelling
    have hjudged := htrust spelling hspelling
    refine ⟨hjudged, fun evidence validateEvidence => ⟨?_, fun hblocked => ?_⟩⟩
    · rw [SourceTrustRegistry.classify, hjudged]
    · simp only [SourceTrustRegistry.classify, hjudged, hblocked, verdictOf_blocked]

-- Every configured level is honoured exactly when the names of one spelling agree.
theorem trust_honoured_iff (config : PyData) (registry : SourceTrustRegistry)
    (hinit : SourceTrustRegistry.init tables config = .ok registry) :
    (∀ name trust, Configures config name trust → Honoured tables registry name trust) ↔
      ∀ name other trust found, Configures config name trust → Configures config other found →
        normalName tables name = normalName tables other → trust = found := by
  constructor
  · intro h name other trust found hname hother hkey
    have htrust := (h name trust hname name rfl).1
    have hfound := (h other found hother name hkey).1
    exact htrust.symm.trans hfound
  · intro h name trust hname
    obtain ⟨other, found, hother, hblank, hkey, hlookup⟩ :=
      lookup_configured tables config registry hinit name trust hname
    rw [honoured_iff tables registry name other trust found hblank hkey hlookup]
    exact h other name found trust hother hname hkey

def sourcesConfig (sources : List (PyStr × Trust)) : PyData :=
  .dict [(.str (py "sources"), .dict (sources.map fun source =>
    (.str source.1, .dict [(.str (py "trust"), .str source.2.name)])))]

theorem configures_sourcesConfig (sources : List (PyStr × Trust)) (name : PyStr) (trust : Trust) :
    Configures (sourcesConfig sources) name trust ↔ (name, trust) ∈ sources := by
  have hsources : sourcesOf (sourcesConfig sources) = some (sources.map fun source =>
      (.str source.1, .dict [(.str (py "trust"), .str source.2.name)])) := by
    simp [sourcesConfig, sourcesOf, PyData.get?, PyData.isStr]
  constructor
  · rintro ⟨sources', fields, hsources', hmem, htrust⟩
    obtain rfl := Option.some.inj (hsources.symm.trans hsources')
    obtain ⟨⟨other, found⟩, hsource, heq⟩ := List.mem_map.mp hmem
    obtain ⟨hname, hfields⟩ := Prod.mk.inj heq
    obtain rfl := PyData.str.inj hname
    obtain rfl := PyData.dict.inj hfields
    have hfound : found.name = trust.name := by simpa [PyData.get?, PyData.isStr] using htrust
    have hlevel := (trustLevel_eq_some found.name trust).mpr hfound
    rw [(trustLevel_eq_some found.name found).mpr rfl] at hlevel
    rwa [← Option.some.inj hlevel]
  · intro h
    refine ⟨_, _, hsources, List.mem_map_of_mem h, ?_⟩
    simp [PyData.get?, PyData.isStr]

def feedAndNoise : PyData := sourcesConfig [(py "Feed", .trusted), (py "Noise", .blockedLocal)]

theorem trust_honoured_distinct : ∃ registry,
    SourceTrustRegistry.init asciiCase feedAndNoise = .ok registry ∧
      Honoured asciiCase registry (py "Noise") .blockedLocal := by
  have hinit : (SourceTrustRegistry.init asciiCase feedAndNoise).toOption.isSome = true := by decide +kernel
  obtain ⟨registry, hregistry⟩ := Option.isSome_iff_exists.mp hinit
  have hok := toOption_eq_some _ _ hregistry
  refine ⟨registry, hok, (trust_honoured_iff asciiCase feedAndNoise registry hok).mpr ?_ _ _ ?_⟩
  · intro name other trust found hname hother hkey
    rw [feedAndNoise, configures_sourcesConfig] at hname hother
    have hdistinct : ∀ source ∈ [(py "Feed", Trust.trusted), (py "Noise", .blockedLocal)],
        ∀ source' ∈ [(py "Feed", Trust.trusted), (py "Noise", .blockedLocal)],
          normalName asciiCase source.1 = normalName asciiCase source'.1 → source.2 = source'.2 := by
      decide +kernel
    exact hdistinct _ hname _ hother hkey
  · rw [feedAndNoise, configures_sourcesConfig]
    exact List.mem_cons_of_mem _ List.mem_cons_self

-- The blocked source is not quarantined: a later entry has the same spelling.
def twoSpellings : PyData := sourcesConfig [(py "Noise", .blockedLocal), (py "noise", .trusted)]

theorem later_spelling_lifts_block : ∃ registry,
    SourceTrustRegistry.init asciiCase twoSpellings = .ok registry ∧
      Configures twoSpellings (py "Noise") .blockedLocal ∧
      registry.trustOf asciiCase (.str (py "Noise")) = .trusted ∧
      (registry.classify asciiCase (py "Noise") (.str (py "evidence")) false).verdict = .accept := by
  have hinit : (SourceTrustRegistry.init asciiCase twoSpellings).toOption.any (fun registry =>
      registry.trustOf asciiCase (.str (py "Noise")) = .trusted &&
        (registry.classify asciiCase (py "Noise") (.str (py "evidence")) false).verdict = .accept) = true := by
    decide +kernel
  obtain ⟨registry, hregistry, hjudged⟩ := (Option.any_eq_true _ _).mp hinit
  obtain ⟨htrust, hverdict⟩ := Bool.and_eq_true_iff.mp hjudged
  refine ⟨registry, toOption_eq_some _ _ hregistry, ?_, of_decide_eq_true htrust, of_decide_eq_true hverdict⟩
  rw [twoSpellings, configures_sourcesConfig]
  exact List.mem_cons_self

end Honoured

end V91Core.SourceQuality
