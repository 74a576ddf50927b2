import V91Core.Effect.Eval
import V91Core.Impact.Total
import Mathlib.Tactic.NormNum.RealSqrt

namespace V91Core.Impact

open V91Core.Python V91Core.Numeric V91Core.Effect

section AnyArithmetic

variable {N : Type} (A : Arith N)

theorem statusOf_valid_iff (flags : List Flag) (statistics : Option (Statistics N)) :
    statusOf A flags statistics = .ok .valid ↔
      flags = [] ∧ ∃ s, statistics = some s ∧ A.lt (A.literal 0 0) s.savedPerSample = true := by
  unfold statusOf
  by_cases hflags : flags = []
  · cases statistics with
    | none => simp [hflags]
    | some s => cases hsaved : A.lt (A.literal 0 0) s.savedPerSample <;> simp [hflags, hsaved]
  · simp [hflags]

def lesser (x y : N) : N := if A.lt y x then y else x

-- A record is valid if no check of the evaluation fails.
theorem computeImpact_valid_iff (measure unit : PyStr) (baselineRows afterRows : List Row) (co2Factor : Option N)
    (higherIsWorse : Bool) (co2Source : Option PyStr) (base after : List (Sample N)) (baseBad afterBad : Nat)
    (hbase : parse A baselineRows = .ok (base, baseBad)) (hafter : parse A afterRows = .ok (after, afterBad)) :
    (∃ r, computeImpact A measure baselineRows afterRows unit co2Factor higherIsWorse co2Source = .ok r ∧
        r.status = .valid) ↔
      ∃ co2, checkCo2 A co2Factor co2Source = .ok co2 ∧ 5 ≤ base.length ∧ 5 ≤ after.length ∧
        overlaps (base.map Sample.timestamp) (after.map Sample.timestamp) = .ok false ∧
        (∃ x y, dataQuality A base baseBad = .ok x ∧ dataQuality A after afterBad = .ok y ∧
          A.lt (A.round 4 (lesser A x y)) (A.literal 85 (-2)) = false) ∧
        ∃ s, compare A base after higherIsWorse co2 = .ok (s, false) ∧
          A.lt (A.literal 0 0) s.savedPerSample = true := by
  have hmin : minSamples = 5 := rfl
  simp only [computeImpact, hbase, hafter, ok_bind, bind_eq_ok, Prod.exists]
  constructor
  · rintro ⟨r, ⟨co2, hco2, o, ho, x, hx, y, hy, statistics, noisy, hcompare, status, hstatus, hr⟩, hvalid⟩
    cases hr
    obtain rfl : status = .valid := hvalid
    obtain ⟨hflags, s, rfl, hsaved⟩ := (statusOf_valid_iff A _ _).mp hstatus
    rw [List.append_assoc, List.append_assoc, flagIf_append_nil, flagIf_append_nil, flagIf_append_nil] at hflags
    obtain ⟨hfew, rfl, hlow, hnoise⟩ := hflags
    rw [Bool.or_eq_false_iff, decide_eq_false_iff_not, decide_eq_false_iff_not] at hfew
    have hnoisy : noisy = false := by
      cases noisy
      · rfl
      · cases hnoise
    subst hnoisy
    rw [compareIfEnough, if_pos (by omega)] at hcompare
    obtain ⟨⟨s', noisy'⟩, hs', heq⟩ := Json.map_eq_ok _ _ _ hcompare
    cases heq
    exact ⟨co2, hco2, by omega, by omega, ho, ⟨x, y, hx, hy, hlow⟩, s, hs', hsaved⟩
  · rintro ⟨co2, hco2, hb, ha, ho, ⟨x, y, hx, hy, hlow⟩, s, hs, hsaved⟩
    have hcompare : compareIfEnough A base after higherIsWorse co2 = .ok (some s, false) := by
      rw [compareIfEnough, if_pos (by omega), hs]
      rfl
    have hflags : flagIf (base.length < minSamples || after.length < minSamples) .tooFewSamples ++
        flagIf false .temporalError ++ flagIf (A.lt (A.round 4 (lesser A x y)) (A.literal 85 (-2))) .lowDqi ++
          flagIf false .notSignificant = [] := by
      rw [hlow, hmin, decide_eq_false (by omega), decide_eq_false (by omega)]
      rfl
    exact ⟨_, ⟨co2, hco2, false, ho, x, hx, y, hy, some s, false, hcompare, .valid,
      (statusOf_valid_iff A _ _).mpr ⟨hflags, s, rfl, hsaved⟩, rfl⟩, rfl⟩

end AnyArithmetic

section Instants

-- The instant of an aware datetime, in microseconds.
def instant (t : DateTime) : Int := t.wall - t.offset.getD 0

theorem timeLt_aware (a b : DateTime) (ha : aware a = true) (hb : aware b = true) :
    timeLt a b = .ok (decide (instant a < instant b)) := by
  obtain ⟨x, hx⟩ := Option.isSome_iff_exists.mp ha
  obtain ⟨y, hy⟩ := Option.isSome_iff_exists.mp hb
  simp [timeLt, instant, hx, hy]

-- No item has a greater key than the picked one.
theorem pick_greatest (beats : DateTime → DateTime → Except PyExc Bool) (key : DateTime → Int)
    (hbeats : ∀ a b, aware a = true → aware b = true → beats a b = .ok (decide (key b < key a)))
    (first : DateTime) (rest : List DateTime) (h : ∀ t ∈ first :: rest, aware t = true) :
    ∃ m ∈ first :: rest, pick beats first rest = .ok m ∧ ∀ t ∈ first :: rest, key t ≤ key m := by
  induction rest generalizing first with
  | nil => exact ⟨first, List.mem_singleton_self _, rfl, by simp⟩
  | cons t rest ih =>
      obtain ⟨hfirst, ht, hrest⟩ : aware first = true ∧ aware t = true ∧ ∀ s ∈ rest, aware s = true := by
        simpa only [List.forall_mem_cons] using h
      rw [pick_cons, hbeats t first ht hfirst]
      by_cases hlt : key first < key t
      · obtain ⟨m, hm, hpick, hle⟩ := ih t (List.forall_mem_cons.mpr ⟨ht, hrest⟩)
        obtain ⟨htm, hrestm⟩ := List.forall_mem_cons.mp hle
        have hresult : pick beats (if decide (key first < key t) = true then t else first) rest = .ok m := by
          rw [if_pos (decide_eq_true hlt)]
          exact hpick
        exact ⟨m, List.mem_cons_of_mem _ hm, hresult, List.forall_mem_cons.mpr ⟨by omega, hle⟩⟩
      · obtain ⟨m, hm, hpick, hle⟩ := ih first (List.forall_mem_cons.mpr ⟨hfirst, hrest⟩)
        obtain ⟨hfirstm, hrestm⟩ := List.forall_mem_cons.mp hle
        have hresult : pick beats (if decide (key first < key t) = true then t else first) rest = .ok m := by
          rw [if_neg (by simpa using hlt)]
          exact hpick
        have hmem : m ∈ first :: t :: rest := by
          rcases List.mem_cons.mp hm with rfl | hm
          · exact List.mem_cons_self
          · exact List.mem_cons_of_mem _ (List.mem_cons_of_mem _ hm)
        exact ⟨m, hmem, hresult,
          List.forall_mem_cons.mpr ⟨hfirstm, List.forall_mem_cons.mpr ⟨by omega, hrestm⟩⟩⟩

theorem overlaps_false_iff (base after : List DateTime) (h : ∀ t ∈ base ++ after, aware t = true)
    (hbase : base ≠ []) (hafter : after ≠ []) :
    overlaps base after = .ok false ↔ ∀ b ∈ base, ∀ a ∈ after, instant b < instant a := by
  obtain ⟨b, base, rfl⟩ := List.exists_cons_of_ne_nil hbase
  obtain ⟨a, after, rfl⟩ := List.exists_cons_of_ne_nil hafter
  have hb : ∀ t ∈ b :: base, aware t = true := fun t ht => h t (List.mem_append_left _ ht)
  have ha : ∀ t ∈ a :: after, aware t = true := fun t ht => h t (List.mem_append_right _ ht)
  obtain ⟨last, hlast, hmax, hlater⟩ := pick_greatest (fun t best => timeLt best t) instant
    (fun x y hx hy => timeLt_aware y x hy hx) b base hb
  obtain ⟨first, hfirst, hmin, hearlier⟩ := pick_greatest timeLt (fun t => -instant t)
    (fun x y hx hy => by simpa using timeLt_aware x y hx hy) a after ha
  have hresult : overlaps (b :: base) (a :: after) = .ok (!decide (instant last < instant first)) := by
    rw [overlaps, maxTime, hmax, minTime, hmin]
    change (timeLt last first >>= fun before => _) = _
    rw [timeLt_aware last first (hb last hlast) (ha first hfirst)]
    rfl
  rw [hresult]
  constructor
  · intro h s hs t ht
    have hlt : instant last < instant first := by simpa using h
    have hs' := hlater s hs
    have ht' := hearlier t ht
    omega
  · intro h
    simpa using h last hlast first hfirst

end Instants

section Exact

theorem exact_rejects (row : Row) : Rejects Arith.exact row := by
  apply rejects_of_float
  intro c _
  cases c with
  | none => exact cell_float_rejects _ _ rfl
  | text s => exact cell_float_rejects _ _ rfl
  | number a => exact raises_ok _ _

theorem exact_lt_iff (x y : ℝ) : Arith.exact.lt x y = true ↔ x < y := decide_eq_true_iff

theorem exact_le_iff (x y : ℝ) : Arith.exact.le x y = true ↔ x ≤ y := decide_eq_true_iff

theorem exact_literal (m : Nat) : Arith.exact.literal m 0 = m := by
  change (m : ℝ) * 10 ^ (0 : Int) = m
  rw [zpow_zero, mul_one]

-- The accepted samples, with the numbers that their texts denote.
noncomputable def readings (rows : List Row) : List (Sample ℝ) := accepted Arith.exact rows

noncomputable def valuesOf (rows : List Row) : List ℝ := (readings rows).map Sample.value

-- The share of accepted rows times the mean confidence in their sources.
noncomputable def quality (rows : List Row) : ℝ :=
  (readings rows).length / rows.length * meanOf ((readings rows).map (confidenceOf Arith.exact))

noncomputable def improvement (base after : List ℝ) (higherIsWorse : Bool) : ℝ :=
  if higherIsWorse then meanOf base - meanOf after else meanOf after - meanOf base

-- The standard error of the difference of two means.
noncomputable def standardError (base after : List ℝ) : ℝ :=
  Real.sqrt (varianceOf base / base.length + varianceOf after / after.length)

theorem dataQuality_exact (rows : List Row) (h : readings rows ≠ []) :
    dataQuality Arith.exact (readings rows) (rows.length - (readings rows).length) =
      .ok (roundPlaces 4 (quality rows)) := by
  have hle : (readings rows).length ≤ rows.length := List.length_filterMap_le _ _
  rw [dataQuality_eq _ _ _ h (accepted_source _ rows), Nat.add_sub_cancel' hle]
  rfl

theorem compare_exact (base after : List (Sample ℝ)) (higherIsWorse : Bool) (co2 : Option (ℝ × PyStr)) :
    ∃ s, compare Arith.exact base after higherIsWorse co2 = .ok (s,
        Arith.exact.le |improvement (base.map Sample.value) (after.map Sample.value) higherIsWorse|
          (2 * standardError (base.map Sample.value) (after.map Sample.value))) ∧
      s.savedPerSample =
        roundPlaces 6 (improvement (base.map Sample.value) (after.map Sample.value) higherIsWorse) := by
  have htwo : Arith.exact.literal 2 0 = (2 : ℝ) := (exact_literal 2).trans Nat.cast_ofNat
  simp only [compare, exact_literal, htwo]
  exact ⟨_, rfl, rfl⟩

-- The smallest difference that does not round to zero is above half a millionth.
theorem compare_valid_iff (base after : List (Sample ℝ)) (higherIsWorse : Bool) (co2 : Option (ℝ × PyStr)) :
    (∃ s, compare Arith.exact base after higherIsWorse co2 = .ok (s, false) ∧
        Arith.exact.lt (Arith.exact.literal 0 0) s.savedPerSample = true) ↔
      1 / 2000000 < improvement (base.map Sample.value) (after.map Sample.value) higherIsWorse ∧
        2 * standardError (base.map Sample.value) (after.map Sample.value) <
          improvement (base.map Sample.value) (after.map Sample.value) higherIsWorse := by
  obtain ⟨s, hs, hsaved⟩ := compare_exact base after higherIsWorse co2
  generalize improvement (base.map Sample.value) (after.map Sample.value) higherIsWorse = d at hs hsaved ⊢
  generalize standardError (base.map Sample.value) (after.map Sample.value) = noise at hs ⊢
  have hround : 0 < roundPlaces 6 d ↔ 1 / 2000000 < d := by
    rw [roundPlaces_pos_iff]
    constructor <;> intro h <;> linarith
  have hzero : Arith.exact.literal 0 0 = (0 : ℝ) := (exact_literal 0).trans Nat.cast_zero
  have hnoise : 0 < d → (Arith.exact.le |d| (2 * noise) = false ↔ 2 * noise < d) := by
    intro hpos
    rw [Bool.eq_false_iff, ne_eq, exact_le_iff, not_le, abs_of_pos hpos]
  rw [hs, hzero]
  constructor
  · rintro ⟨s', hs', hlt⟩
    obtain ⟨rfl, hfalse⟩ := Prod.mk.inj (Except.ok.inj hs')
    rw [exact_lt_iff, hsaved, hround] at hlt
    exact ⟨hlt, (hnoise (by linarith)).mp hfalse⟩
  · rintro ⟨hd, hlt⟩
    refine ⟨s, by rw [(hnoise (by linarith)).mpr hlt], ?_⟩
    rw [exact_lt_iff, hsaved, hround]
    exact hd

-- Two roundings to four places are one.
theorem quality_check (x y : ℝ) :
    Arith.exact.lt (Arith.exact.round 4 (lesser Arith.exact (roundPlaces 4 x) (roundPlaces 4 y)))
        (Arith.exact.literal 85 (-2)) = false ↔ 84995 / 100000 ≤ x ∧ 84995 / 100000 ≤ y := by
  have hplaces : ∀ z : ℝ, 85 / 100 ≤ roundPlaces 4 z ↔ 84995 / 100000 ≤ z := by
    intro z
    have h := le_roundPlaces_iff 8500 4 z
    rw [le_roundEven_even 8500 (z * 10 ^ 4) rfl] at h
    have hleft : ((8500 : Int) : ℝ) / 10 ^ 4 = 85 / 100 := by norm_num
    rw [hleft] at h
    rw [h]
    constructor <;> intro h <;> norm_num at h ⊢ <;> linarith
  have hliteral : Arith.exact.literal 85 (-2) = (85 / 100 : ℝ) := by
    change ((85 : Nat) : ℝ) * 10 ^ (-2 : Int) = _
    norm_num
  have hround : Arith.exact.round 4 (lesser Arith.exact (roundPlaces 4 x) (roundPlaces 4 y)) =
      lesser Arith.exact (roundPlaces 4 x) (roundPlaces 4 y) := by
    change roundPlaces 4 _ = _
    unfold lesser
    split <;> exact roundPlaces_idem 4 _
  rw [hround, hliteral, Bool.eq_false_iff, ne_eq, exact_lt_iff, not_lt, ← hplaces x, ← hplaces y, lesser]
  split
  · next hlt =>
      rw [exact_lt_iff] at hlt
      exact ⟨fun h => ⟨h.trans hlt.le, h⟩, fun h => h.2⟩
  · next hle =>
      rw [exact_lt_iff, not_lt] at hle
      exact ⟨fun h => ⟨h, h.trans hle⟩, fun h => h.1⟩

-- What a valid record says of the measurements, in exact numbers.
theorem impact_valid_iff (measure unit : PyStr) (baselineRows afterRows : List Row) (co2Factor : Option ℝ)
    (higherIsWorse : Bool) (co2Source : Option PyStr)
    (haware : ∀ s ∈ readings baselineRows ++ readings afterRows, aware s.timestamp = true) :
    (∃ r, computeImpact Arith.exact measure baselineRows afterRows unit co2Factor higherIsWorse co2Source = .ok r ∧
        r.status = .valid) ↔
      ValidCo2 Arith.exact co2Factor co2Source ∧
      5 ≤ (readings baselineRows).length ∧ 5 ≤ (readings afterRows).length ∧
      (∀ b ∈ readings baselineRows, ∀ a ∈ readings afterRows, instant b.timestamp < instant a.timestamp) ∧
      (84995 / 100000 ≤ quality baselineRows ∧ 84995 / 100000 ≤ quality afterRows) ∧
      1 / 2000000 < improvement (valuesOf baselineRows) (valuesOf afterRows) higherIsWorse ∧
      2 * standardError (valuesOf baselineRows) (valuesOf afterRows) <
        improvement (valuesOf baselineRows) (valuesOf afterRows) higherIsWorse := by
  have hbase := parse_eq Arith.exact baselineRows fun row _ => exact_rejects row
  have hafter := parse_eq Arith.exact afterRows fun row _ => exact_rejects row
  rw [computeImpact_valid_iff Arith.exact _ _ _ _ _ _ _ _ _ _ _ hbase hafter]
  change (∃ co2, _ ∧ 5 ≤ (readings baselineRows).length ∧ 5 ≤ (readings afterRows).length ∧ _) ↔ _
  by_cases hb : 5 ≤ (readings baselineRows).length
  · by_cases ha : 5 ≤ (readings afterRows).length
    · have hbne : readings baselineRows ≠ [] := List.length_pos_iff.mp (by omega)
      have hane : readings afterRows ≠ [] := List.length_pos_iff.mp (by omega)
      have htimes : overlaps ((readings baselineRows).map Sample.timestamp) ((readings afterRows).map Sample.timestamp)
          = .ok false ↔ ∀ b ∈ readings baselineRows, ∀ a ∈ readings afterRows,
            instant b.timestamp < instant a.timestamp := by
        rw [overlaps_false_iff _ _ ?_ (by simpa using hbne) (by simpa using hane)]
        · simp only [List.forall_mem_map]
        · rw [← List.map_append, List.forall_mem_map]
          exact haware
      have hquality : (∃ x y, dataQuality Arith.exact (readings baselineRows)
            (baselineRows.length - (readings baselineRows).length) = .ok x ∧
          dataQuality Arith.exact (readings afterRows) (afterRows.length - (readings afterRows).length) = .ok y ∧
          Arith.exact.lt (Arith.exact.round 4 (lesser Arith.exact x y)) (Arith.exact.literal 85 (-2)) = false) ↔
            84995 / 100000 ≤ quality baselineRows ∧ 84995 / 100000 ≤ quality afterRows := by
        rw [dataQuality_exact _ hbne, dataQuality_exact _ hane, ← quality_check]
        constructor
        · rintro ⟨x, y, hx, hy, h⟩
          cases hx
          cases hy
          exact h
        · intro h
          exact ⟨_, _, rfl, rfl, h⟩
      rw [← checkCo2_isOk_iff]
      constructor
      · rintro ⟨co2, hco2, -, -, ho, hq, hs⟩
        exact ⟨⟨co2, hco2⟩, hb, ha, htimes.mp ho, hquality.mp hq, (compare_valid_iff _ _ _ co2).mp hs⟩
      · rintro ⟨⟨co2, hco2⟩, -, -, ho, hq, hs⟩
        exact ⟨co2, hco2, hb, ha, htimes.mpr ho, hquality.mpr hq, (compare_valid_iff _ _ _ co2).mpr hs⟩
    · exact iff_of_false (by rintro ⟨-, -, -, h, -⟩; exact ha h) (by rintro ⟨-, -, h, -⟩; exact ha h)
  · exact iff_of_false (by rintro ⟨-, -, h, -⟩; exact hb h) (by rintro ⟨-, h, -⟩; exact hb h)

-- Five equal rows of a sensor.
def steadyRows (timestamp value : String) : List Row := List.replicate 5 (csvRow timestamp value "direct_sensor")

theorem readings_steady (timestamp value : String) (t : DateTime) (digits : Nat) (exponent : Int)
    (ht : fromIsoFormat (Manifest.replaceZulu (py timestamp)) = some t)
    (hvalue : floatText (py value) = some (.decimal false digits exponent)) :
    readings (steadyRows timestamp value) =
      List.replicate 5 ⟨t, digits * 10 ^ exponent, py "direct_sensor"⟩ := by
  have hsource : strip (py "direct_sensor") = py "direct_sensor" := by decide
  have hnumeral : Arith.exact.ofNumeral (.decimal false digits exponent) = some (digits * 10 ^ exponent : ℝ) := by
    change some ((Decimal.toRat ⟨false, digits, exponent⟩ : ℚ) : ℝ) = _
    simp [Decimal.toRat]
  have hread : (readSample Arith.exact (csvRow timestamp value "direct_sensor")).toOption =
      some ⟨t, digits * 10 ^ exponent, py "direct_sensor"⟩ := by
    simp only [readSample, csvRow, ofOption, ok_bind, Cell.str, Cell.float, ht, hvalue, Except.map, hnumeral,
      Option.getD_some, hsource]
    rfl
  exact List.filterMap_replicate_of_some hread

end Exact

section Steady

-- Rows of one value each have no error at all.
theorem steady_values (timestamp value : String) (t : DateTime) (digits : Nat) (exponent : Int)
    (ht : fromIsoFormat (Manifest.replaceZulu (py timestamp)) = some t)
    (hvalue : floatText (py value) = some (.decimal false digits exponent)) :
    valuesOf (steadyRows timestamp value) = List.replicate 5 (digits * 10 ^ exponent : ℝ) := by
  rw [valuesOf, readings_steady timestamp value t digits exponent ht hvalue, List.map_replicate]

theorem steady_quality (timestamp value : String) (t : DateTime) (digits : Nat) (exponent : Int)
    (ht : fromIsoFormat (Manifest.replaceZulu (py timestamp)) = some t)
    (hvalue : floatText (py value) = some (.decimal false digits exponent)) :
    quality (steadyRows timestamp value) = 1 := by
  have hconfidence : confidenceOf Arith.exact ⟨t, digits * 10 ^ exponent, py "direct_sensor"⟩ = 1 := by
    have hlookup : sourceConfidence.lookup (py "direct_sensor") = some (100, -2) := by decide
    rw [confidenceOf, confidence, hlookup]
    change ((100 : Nat) : ℝ) * 10 ^ (-2 : Int) = 1
    norm_num
  rw [quality, readings_steady timestamp value t digits exponent ht hvalue, List.map_replicate, hconfidence,
    meanOf_replicate 5 _ (by decide), steadyRows, List.length_replicate, List.length_replicate]
  norm_num

theorem steady_error (x y : ℝ) : standardError (List.replicate 5 x) (List.replicate 5 y) = 0 := by
  rw [standardError, varianceOf_replicate 5 x (by decide), varianceOf_replicate 5 y (by decide)]
  norm_num

theorem steady_improvement (x y : ℝ) : improvement (List.replicate 5 x) (List.replicate 5 y) true = x - y := by
  rw [improvement, if_pos rfl, meanOf_replicate 5 x (by decide), meanOf_replicate 5 y (by decide)]

theorem november_first :
    fromIsoFormat (Manifest.replaceZulu (py "2026-11-01T00:00:00Z")) = some ⟨63929174400000000, some 0⟩ := by
  decide +kernel

theorem november_second :
    fromIsoFormat (Manifest.replaceZulu (py "2026-11-02T00:00:00Z")) = some ⟨63929260800000000, some 0⟩ := by
  decide +kernel

-- The rows of two days are aware, and the days are in order.
theorem steady_days (x y : String) (m n : Nat) (d e : Int)
    (hx : floatText (py x) = some (.decimal false m d)) (hy : floatText (py y) = some (.decimal false n e)) :
    (∀ s ∈ readings (steadyRows "2026-11-01T00:00:00Z" x) ++ readings (steadyRows "2026-11-02T00:00:00Z" y),
        aware s.timestamp = true) ∧
      ∀ b ∈ readings (steadyRows "2026-11-01T00:00:00Z" x), ∀ a ∈ readings (steadyRows "2026-11-02T00:00:00Z" y),
        instant b.timestamp < instant a.timestamp := by
  rw [readings_steady _ x _ m d november_first hx, readings_steady _ y _ n e november_second hy]
  constructor
  · intro s hs
    rcases List.mem_append.mp hs with hs | hs <;>
      · rw [List.eq_of_mem_replicate hs]
        rfl
  · intro b hb a ha
    rw [List.eq_of_mem_replicate hb, List.eq_of_mem_replicate ha]
    change instant ⟨63929174400000000, some 0⟩ < instant ⟨63929260800000000, some 0⟩
    decide

theorem steady_count (timestamp value : String) (t : DateTime) (digits : Nat) (exponent : Int)
    (ht : fromIsoFormat (Manifest.replaceZulu (py timestamp)) = some t)
    (hvalue : floatText (py value) = some (.decimal false digits exponent)) :
    5 ≤ (readings (steadyRows timestamp value)).length := by
  rw [readings_steady timestamp value t digits exponent ht hvalue, List.length_replicate]

theorem impact_valid_sample :
    ∃ r, computeImpact Arith.exact (py "energy") (steadyRows "2026-11-01T00:00:00Z" "100")
      (steadyRows "2026-11-02T00:00:00Z" "80") (py "kWh") none true none = .ok r ∧ r.status = .valid := by
  have hx : floatText (py "100") = some (.decimal false 100 0) := by decide +kernel
  have hy : floatText (py "80") = some (.decimal false 80 0) := by decide +kernel
  obtain ⟨haware, horder⟩ := steady_days "100" "80" 100 80 0 0 hx hy
  apply (impact_valid_iff _ _ _ _ _ _ _ haware).mpr
  rw [steady_quality _ _ _ _ _ november_first hx, steady_quality _ _ _ _ _ november_second hy,
    steady_values _ _ _ _ _ november_first hx, steady_values _ _ _ _ _ november_second hy, steady_error,
    steady_improvement]
  exact ⟨by rintro f ⟨⟩, steady_count _ _ _ _ _ november_first hx, steady_count _ _ _ _ _ november_second hy, horder,
    by norm_num, by norm_num, by norm_num⟩

-- A tenth of a millionth is an improvement without noise, and it rounds to zero.
theorem small_improvement_not_valid :
    ¬∀ (measure unit : PyStr) (baselineRows afterRows : List Row) (higherIsWorse : Bool),
      (∀ s ∈ readings baselineRows ++ readings afterRows, aware s.timestamp = true) →
      ((∃ r, computeImpact Arith.exact measure baselineRows afterRows unit none higherIsWorse none = .ok r ∧
          r.status = .valid) ↔
        5 ≤ (readings baselineRows).length ∧ 5 ≤ (readings afterRows).length ∧
        (∀ b ∈ readings baselineRows, ∀ a ∈ readings afterRows, instant b.timestamp < instant a.timestamp) ∧
        (85 / 100 ≤ quality baselineRows ∧ 85 / 100 ≤ quality afterRows) ∧
        0 < improvement (valuesOf baselineRows) (valuesOf afterRows) higherIsWorse ∧
        2 * standardError (valuesOf baselineRows) (valuesOf afterRows) <
          improvement (valuesOf baselineRows) (valuesOf afterRows) higherIsWorse) := by
  intro h
  have hx : floatText (py "1.0000001") = some (.decimal false 10000001 (-7)) := by decide +kernel
  have hy : floatText (py "1") = some (.decimal false 1 0) := by decide +kernel
  obtain ⟨haware, horder⟩ := steady_days "1.0000001" "1" 10000001 1 (-7) 0 hx hy
  have hvalid := (h (py "energy") (py "kWh") _ _ true haware).mpr ?_
  · -- the status needs a rounded difference above zero
    have hb := parse_eq Arith.exact (steadyRows "2026-11-01T00:00:00Z" "1.0000001") fun row _ => exact_rejects row
    have ha := parse_eq Arith.exact (steadyRows "2026-11-02T00:00:00Z" "1") fun row _ => exact_rejects row
    obtain ⟨co2, -, -, -, -, -, hcompare⟩ :=
      (computeImpact_valid_iff Arith.exact _ _ _ _ _ _ _ _ _ _ _ hb ha).mp hvalid
    have hd := ((compare_valid_iff _ _ true co2).mp hcompare).1
    change 1 / 2000000 < improvement (valuesOf _) (valuesOf _) true at hd
    rw [steady_values _ _ _ _ _ november_first hx, steady_values _ _ _ _ _ november_second hy,
      steady_improvement] at hd
    norm_num at hd
  · rw [steady_quality _ _ _ _ _ november_first hx, steady_quality _ _ _ _ _ november_second hy,
      steady_values _ _ _ _ _ november_first hx, steady_values _ _ _ _ _ november_second hy, steady_error,
      steady_improvement]
    exact ⟨steady_count _ _ _ _ _ november_first hx, steady_count _ _ _ _ _ november_second hy, horder, by norm_num,
      by norm_num, by norm_num⟩

end Steady

end V91Core.Impact
