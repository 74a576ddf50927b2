import V91Core.Impact.Accepted

namespace V91Core.Impact

open V91Core.Python V91Core.Numeric V91Core.Effect

section Evaluation

variable {N : Type} (A : Arith N)

-- An absent factor needs no source, and a factor is a finite number that is not negative.
def ValidCo2 (factor : Option N) (source : Option PyStr) : Prop :=
  ∀ f, factor = some f →
    strip (source.getD []) ≠ [] ∧ A.isFinite f = true ∧ A.lt f (A.literal 0 0) = false

theorem checkCo2_isOk_iff (factor : Option N) (source : Option PyStr) :
    (∃ co2, checkCo2 A factor source = .ok co2) ↔ ValidCo2 A factor source := by
  unfold checkCo2 ValidCo2
  cases factor with
  | none => simp
  | some f =>
      by_cases hsource : strip (source.getD []) = []
      · simp [hsource]
      · cases hfinite : A.isFinite f <;> cases hneg : A.lt f (A.literal 0 0) <;> simp [hsource, hfinite, hneg]

theorem statusOf_isOk (flags : List Flag) (statistics : Option (Statistics N))
    (h : flags = [] → statistics.isSome = true) : ∃ status, statusOf A flags statistics = .ok status := by
  unfold statusOf
  by_cases hflags : flags = []
  · obtain ⟨s, rfl⟩ := Option.isSome_iff_exists.mp (h hflags)
    exact ⟨_, if_pos hflags⟩
  · exact ⟨_, if_neg hflags⟩

theorem compareIfEnough_isSome (base after : List (Sample N)) (higherIsWorse noisy : Bool)
    (co2 : Option (N × PyStr)) (statistics : Option (Statistics N))
    (h : compareIfEnough A base after higherIsWorse co2 = .ok (statistics, noisy))
    (hbase : 2 ≤ base.length) (hafter : 2 ≤ after.length) : statistics.isSome = true := by
  rw [compareIfEnough, if_pos ⟨hbase, hafter⟩] at h
  obtain ⟨r, -, hr⟩ := Json.map_eq_ok _ _ _ h
  cases hr
  rfl

def confidenceOf (s : Sample N) : N := (confidence A s.source).getD (A.literal 0 0)

theorem confidences_eq (samples : List (Sample N)) (h : ∀ s ∈ samples, (confidence A s.source).isSome = true) :
    (samples.mapM fun s => ofOption PyExc.keyError (confidence A s.source)) =
      .ok (samples.map (confidenceOf A)) := by
  induction samples with
  | nil => rfl
  | cons s samples ih =>
      obtain ⟨hs, hsamples⟩ := List.forall_mem_cons.mp h
      obtain ⟨c, hc⟩ := Option.isSome_iff_exists.mp hs
      rw [List.mapM_cons, ih hsamples, List.map_cons, confidenceOf, hc]
      rfl

theorem dataQuality_eq (samples : List (Sample N)) (rejected : Nat) (hne : samples ≠ [])
    (h : ∀ s ∈ samples, (confidence A s.source).isSome = true) :
    dataQuality A samples rejected = (A.mean (samples.map (confidenceOf A))).map fun confidence =>
      A.round 4 (A.mul (A.ratio samples.length (samples.length + rejected)) confidence) := by
  rw [dataQuality, if_neg hne, confidences_eq A samples h]
  change (A.mean (samples.map (confidenceOf A)) >>= fun confidence => _) = _
  cases A.mean (samples.map (confidenceOf A)) <;> rfl

-- What a record is made of.
theorem computeImpact_eq_ok (measure unit : PyStr) (baselineRows afterRows : List Row) (co2Factor : Option N)
    (higherIsWorse : Bool) (co2Source : Option PyStr) (r : Record N)
    (h : computeImpact A measure baselineRows afterRows unit co2Factor higherIsWorse co2Source = .ok r) :
    ∃ base after baseBad afterBad, parse A baselineRows = .ok (base, baseBad) ∧
      parse A afterRows = .ok (after, afterBad) ∧ r.nBaseline = base.length ∧ r.nAfter = after.length ∧
      r.rejectedRows = baseBad + afterBad := by
  simp only [computeImpact, bind_eq_ok, Prod.exists] at h
  obtain ⟨_, _, base, baseBad, hbase, after, afterBad, hafter, _, _, _, _, _, _, _, _, _, _, _, hr⟩ := h
  cases hr
  exact ⟨base, after, baseBad, afterBad, hbase, hafter, rfl, rfl, rfl⟩

end Evaluation

section Binary64

-- The samples of the rows with the numbers of the interpreter.
def samplesOf (rows : List Row) : List (Sample Float) := accepted Arith.binary64 rows

def timesOf (rows : List Row) : List DateTime := (samplesOf rows).map Sample.timestamp

-- The exact variance of what was measured.
def spread (rows : List Row) : ℚ := varianceOf ((samplesOf rows).map fun s => exactRatio s.value)

theorem dataQuality_isOk (samples : List (Sample Float)) (rejected : Nat)
    (h : ∀ s ∈ samples, (confidence Arith.binary64 s.source).isSome = true) :
    ∃ q, dataQuality Arith.binary64 samples rejected = .ok q := by
  by_cases hne : samples = []
  · exact ⟨_, if_pos hne⟩
  · obtain ⟨m, hm⟩ := mean_ok (samples.map (confidenceOf Arith.binary64)) (by simpa using hne)
    have hmean : Arith.binary64.mean (samples.map (confidenceOf Arith.binary64)) = .ok m := hm
    rw [dataQuality_eq _ _ _ hne h, hmean]
    exact ⟨_, rfl⟩

theorem compare_isOk_iff (base after : List (Sample Float)) (higherIsWorse : Bool) (co2 : Option (Float × PyStr))
    (hbase : 2 ≤ base.length) (hafter : 2 ≤ after.length) :
    (∃ r, compare Arith.binary64 base after higherIsWorse co2 = .ok r) ↔
      varianceOf (base.map fun s => exactRatio s.value) < overflowThreshold ∧
        varianceOf (after.map fun s => exactRatio s.value) < overflowThreshold := by
  have hvariance : ∀ samples : List (Sample Float), 2 ≤ samples.length → ∀ x,
      Arith.binary64.variance (samples.map Sample.value) = .ok x ↔
        varianceOf (samples.map fun s => exactRatio s.value) < overflowThreshold ∧
          nearestFloat (varianceOf (samples.map fun s => exactRatio s.value)) = x := by
    intro samples hlength x
    have h := variance_eq_ok (samples.map Sample.value) x (by rw [List.length_map]; exact hlength)
    rw [List.map_map] at h
    exact h
  have hmean : ∀ samples : List (Sample Float), 2 ≤ samples.length →
      ∃ m, Arith.binary64.mean (samples.map Sample.value) = .ok m := by
    intro samples hlength
    apply mean_ok
    intro hnil
    rw [List.map_eq_nil_iff.mp hnil] at hlength
    simp at hlength
  constructor
  · rintro ⟨r, h⟩
    simp only [compare, bind_eq_ok] at h
    obtain ⟨-, -, -, -, x, hx, y, hy, -⟩ := h
    exact ⟨((hvariance base hbase x).mp hx).1, ((hvariance after hafter y).mp hy).1⟩
  · rintro ⟨hb, ha⟩
    obtain ⟨m, hm⟩ := hmean base hbase
    obtain ⟨n, hn⟩ := hmean after hafter
    obtain ⟨x, hx⟩ : ∃ x, Arith.binary64.variance (base.map Sample.value) = .ok x :=
      ⟨_, (hvariance base hbase _).mpr ⟨hb, rfl⟩⟩
    obtain ⟨y, hy⟩ : ∃ y, Arith.binary64.variance (after.map Sample.value) = .ok y :=
      ⟨_, (hvariance after hafter _).mpr ⟨ha, rfl⟩⟩
    -- both variances are without a sign, and so is the sum of their parts
    have hunsigned : IsUnsigned (x / decimalToFloat false (base.map Sample.value).length 0 +
        y / decimalToFloat false (after.map Sample.value).length 0) :=
      .add _ _ (.div _ _ (variance_isUnsigned _ x hx) (isUnsigned_decimal _ _))
        (.div _ _ (variance_isUnsigned _ y hy) (isUnsigned_decimal _ _))
    simp only [compare, bind_eq_ok]
    exact ⟨_, m, hm, n, hn, x, hx, y, hy, _, mathSqrt_ok _ hunsigned, rfl⟩

theorem compareIfEnough_isOk_iff (base after : List (Sample Float)) (higherIsWorse : Bool)
    (co2 : Option (Float × PyStr)) :
    (∃ r, compareIfEnough Arith.binary64 base after higherIsWorse co2 = .ok r) ↔
      (2 ≤ base.length → 2 ≤ after.length →
        varianceOf (base.map fun s => exactRatio s.value) < overflowThreshold ∧
          varianceOf (after.map fun s => exactRatio s.value) < overflowThreshold) := by
  unfold compareIfEnough
  by_cases h : 2 ≤ base.length ∧ 2 ≤ after.length
  · rw [if_pos h, ← and_imp, imp_iff_right h, ← compare_isOk_iff base after higherIsWorse co2 h.1 h.2]
    cases compare Arith.binary64 base after higherIsWorse co2 <;> simp [Except.map]
  · rw [if_neg h, ← and_imp]
    exact iff_of_true ⟨_, rfl⟩ fun h' => absurd h' h

theorem flagIf_append_nil (raised : Bool) (flag : Flag) (flags : List Flag) :
    flagIf raised flag ++ flags = [] ↔ raised = false ∧ flags = [] := by
  cases raised <;> simp [flagIf]

-- The steps that may fail, once both lists are parsed.
theorem computeImpact_isOk_iff (measure unit : PyStr) (baselineRows afterRows : List Row) (co2Factor : Option Float)
    (higherIsWorse : Bool) (co2Source : Option PyStr)
    (hrows : ∀ row ∈ baselineRows ++ afterRows, row.isCsv = true)
    (hco2 : ValidCo2 Arith.binary64 co2Factor co2Source) :
    (∃ r, computeImpact Arith.binary64 measure baselineRows afterRows unit co2Factor higherIsWorse co2Source = .ok r) ↔
      (∃ o, overlaps (timesOf baselineRows) (timesOf afterRows) = .ok o) ∧
        (2 ≤ (samplesOf baselineRows).length → 2 ≤ (samplesOf afterRows).length →
          spread baselineRows < overflowThreshold ∧ spread afterRows < overflowThreshold) := by
  have hbase := parse_eq Arith.binary64 baselineRows
    fun row hrow => csv_rejects _ row (hrows row (List.mem_append_left _ hrow))
  have hafter := parse_eq Arith.binary64 afterRows
    fun row hrow => csv_rejects _ row (hrows row (List.mem_append_right _ hrow))
  obtain ⟨co2, hco2⟩ := (checkCo2_isOk_iff Arith.binary64 co2Factor co2Source).mpr hco2
  obtain ⟨baseDqi, hbaseDqi⟩ := dataQuality_isOk (samplesOf baselineRows)
    (baselineRows.length - (samplesOf baselineRows).length) (accepted_source _ baselineRows)
  obtain ⟨afterDqi, hafterDqi⟩ := dataQuality_isOk (samplesOf afterRows)
    (afterRows.length - (samplesOf afterRows).length) (accepted_source _ afterRows)
  have hcompare := compareIfEnough_isOk_iff (samplesOf baselineRows) (samplesOf afterRows) higherIsWorse co2
  rw [spread, spread, ← hcompare]
  simp only [computeImpact, bind_eq_ok, Prod.exists]
  constructor
  · rintro ⟨r, co2', hco2', base, baseBad, hbase', after, afterBad, hafter', o, ho, -, -, -, -, s, noisy, hs, -⟩
    obtain ⟨rfl, rfl⟩ := Prod.mk.inj (Except.ok.inj (hbase.symm.trans hbase'))
    obtain ⟨rfl, rfl⟩ := Prod.mk.inj (Except.ok.inj (hafter.symm.trans hafter'))
    obtain rfl := Except.ok.inj (hco2.symm.trans hco2')
    exact ⟨⟨o, ho⟩, s, noisy, hs⟩
  · rintro ⟨⟨o, ho⟩, s, noisy, hs⟩
    have hstatus : ∀ dqi, ∃ status, statusOf Arith.binary64
        (flagIf ((samplesOf baselineRows).length < minSamples || (samplesOf afterRows).length < minSamples)
          .tooFewSamples ++ flagIf o .temporalError ++ flagIf (Arith.binary64.lt dqi (Arith.binary64.literal 85 (-2)))
            .lowDqi ++ flagIf noisy .notSignificant) s = .ok status := by
      intro dqi
      apply statusOf_isOk
      intro hflags
      -- without the first flag the statistics are there
      simp only [List.append_assoc, flagIf_append_nil, Bool.or_eq_false_iff, decide_eq_false_iff_not] at hflags
      obtain ⟨⟨hb, ha⟩, -⟩ := hflags
      have hmin : minSamples = 5 := rfl
      exact compareIfEnough_isSome _ _ _ _ _ _ _ hs (by omega) (by omega)
    obtain ⟨status, hstatus⟩ := hstatus _
    exact ⟨_, co2, hco2, _, _, hbase, _, _, hafter, o, ho, baseDqi, hbaseDqi, afterDqi, hafterDqi, s, noisy, hs,
      status, hstatus, rfl⟩

-- The rows of CSV files make a record exactly if the times of the accepted samples
-- are all aware or all naive, and no variance is out of range.
theorem impact_total_iff (measure unit : PyStr) (baselineRows afterRows : List Row) (co2Factor : Option Float)
    (higherIsWorse : Bool) (co2Source : Option PyStr)
    (hrows : ∀ row ∈ baselineRows ++ afterRows, row.isCsv = true)
    (hco2 : ValidCo2 Arith.binary64 co2Factor co2Source) :
    (∃ r, computeImpact Arith.binary64 measure baselineRows afterRows unit co2Factor higherIsWorse co2Source = .ok r ∧
        r.nBaseline + r.nAfter + r.rejectedRows = baselineRows.length + afterRows.length ∧
        (r.status = .valid ∨ r.status = .noImprovement ∨ r.status = .quarantine)) ↔
      (timesOf baselineRows ≠ [] → timesOf afterRows ≠ [] → OneKind (timesOf baselineRows ++ timesOf afterRows)) ∧
        (2 ≤ (samplesOf baselineRows).length → 2 ≤ (samplesOf afterRows).length →
          spread baselineRows < overflowThreshold ∧ spread afterRows < overflowThreshold) := by
  rw [← overlaps_isOk_iff, ← computeImpact_isOk_iff measure unit baselineRows afterRows co2Factor higherIsWorse
    co2Source hrows hco2]
  constructor
  · rintro ⟨r, hr, -⟩
    exact ⟨r, hr⟩
  · rintro ⟨r, hr⟩
    obtain ⟨base, after, baseBad, afterBad, hbase, hafter, hn, hm, hrejected⟩ :=
      computeImpact_eq_ok _ _ _ _ _ _ _ _ _ hr
    rw [parse_eq _ _ fun row hrow => csv_rejects _ row (hrows row (List.mem_append_left _ hrow))] at hbase
    rw [parse_eq _ _ fun row hrow => csv_rejects _ row (hrows row (List.mem_append_right _ hrow))] at hafter
    cases hbase
    cases hafter
    have hb : (accepted Arith.binary64 baselineRows).length ≤ baselineRows.length := List.length_filterMap_le _ _
    have ha : (accepted Arith.binary64 afterRows).length ≤ afterRows.length := List.length_filterMap_le _ _
    refine ⟨r, hr, by omega, ?_⟩
    cases r.status <;> simp

def csvRow (timestamp value source : String) : Row :=
  ⟨some (.text (py timestamp)), some (.text (py value)), some (.text (py source))⟩

def sampleBaseline : List Row :=
  [csvRow "2026-11-01T00:00:00Z" "100.5" "direct_sensor", csvRow "2026-11-01T01:00:00Z" "1e3" "calculated",
    csvRow "2026-11-01T02:00:00Z" "1e400" "direct_sensor"]

def sampleAfter : List Row :=
  [csvRow "x" "80" "estimated", csvRow "2026-11-02T00:00:00Z" "80" "estimated",
    csvRow "2026-11-02T01:00:00+01:00" "-0.5" "manual_entry", csvRow "2026-11-02T02:00:00Z" "nan" "guessed"]

-- Two rows of each period are accepted, and their variances are in range. The others are rejected.
theorem impact_total_sample :
    ∃ r, computeImpact Arith.binary64 (py "energy") sampleBaseline sampleAfter (py "kWh") (some 0.4) true
        (some (py "UBA")) = .ok r ∧
      r.nBaseline + r.nAfter + r.rejectedRows = 3 + 4 ∧
      (r.status = .valid ∨ r.status = .noImprovement ∨ r.status = .quarantine) := by
  have hco2 : ValidCo2 Arith.binary64 (some 0.4) (some (py "UBA")) := by
    rintro f ⟨⟩
    decide +kernel
  have hkind : OneKind (timesOf sampleBaseline ++ timesOf sampleAfter) := by
    unfold OneKind
    decide +kernel
  have hspread : spread sampleBaseline < overflowThreshold ∧ spread sampleAfter < overflowThreshold := by
    decide +kernel
  exact (impact_total_iff _ _ sampleBaseline sampleAfter _ _ _ (by decide) hco2).mpr
    ⟨fun _ _ => hkind, fun _ _ => hspread⟩

-- A local time in one file and an instant in the other one do not compare.
theorem mixed_times_crash :
    ¬∀ (measure unit : PyStr) (baselineRows afterRows : List Row) (co2Factor : Option Float)
      (higherIsWorse : Bool) (co2Source : Option PyStr),
      (∀ row ∈ baselineRows ++ afterRows, row.isCsv = true) → ValidCo2 Arith.binary64 co2Factor co2Source →
      ∃ r, computeImpact Arith.binary64 measure baselineRows afterRows unit co2Factor higherIsWorse co2Source = .ok r ∧
        r.nBaseline + r.nAfter + r.rejectedRows = baselineRows.length + afterRows.length ∧
        (r.status = .valid ∨ r.status = .noImprovement ∨ r.status = .quarantine) := by
  intro h
  have hfails : (computeImpact Arith.binary64 (py "energy") [csvRow "2026-11-01T00:00:00" "100" "direct_sensor"]
      [csvRow "2026-11-02T00:00:00Z" "80" "direct_sensor"] (py "kWh") none true none).isOk = false := by
    decide +kernel
  obtain ⟨r, hr, -⟩ := h (py "energy") (py "kWh") [csvRow "2026-11-01T00:00:00" "100" "direct_sensor"]
    [csvRow "2026-11-02T00:00:00Z" "80" "direct_sensor"] none true none (by decide) (by rintro f ⟨⟩)
  rw [hr] at hfails
  cases hfails

end Binary64

end V91Core.Impact
