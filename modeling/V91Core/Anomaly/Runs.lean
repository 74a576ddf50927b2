import V91Core.Anomaly.Detector

namespace V91Core.Anomaly

open V91Core.Python V91Core.Effect V91Core.Numeric

namespace Sample

variable (s : Sample)

-- The valid finite value that is not a bool.
def number : Option Float :=
  if s.value.isBool then none
  else match toFloat s.foreign s.value with
    | .ok x => if Json.isFinite x then some x else none
    | .error _ => none

-- What the call submits for this metric.
def numberFor (m : Metric) : Option Float := if metricOf s.metric = some m then s.number else none

end Sample

section Step

-- The conversion raises only what is caught, and the deviation of the values before is in
-- the range of the floats.
def Meets (d : AnomalyDetector) (s : Sample) : Prop :=
  ∀ m, metricOf s.metric = some m → s.value.isBool = false →
    (∀ e, toFloat s.foreign s.value = .error e → (e.isTypeError || e.isValueError) = true) ∧
      (s.number.isSome = true → 5 ≤ (d.windows m).items.length →
        varianceOf ((d.windows m).items.map exactRatio) < overflowThreshold ^ 2)

theorem isAnomaly_isOk_iff (zThreshold : PyNum) (values : List Float) (candidate : Float) :
    (∃ answer, AnomalyDetector.isAnomaly zThreshold values candidate = .ok answer) ↔
      (5 ≤ values.length → varianceOf (values.map exactRatio) < overflowThreshold ^ 2) := by
  unfold AnomalyDetector.isAnomaly
  by_cases hshort : values.length < 5
  · rw [if_pos hshort]
    exact iff_of_true ⟨false, rfl⟩ fun h => by omega
  · have hne : values ≠ [] := by
      rintro rfl
      exact hshort (by simp)
    obtain ⟨baselineMean, hmean⟩ := mean_ok values hne
    rw [if_neg hshort, hmean, ok_bind, imp_iff_right (Nat.le_of_not_lt hshort), ← stdev_isOk_iff values (by omega)]
    constructor
    · rintro ⟨answer, h⟩
      obtain ⟨baselineStdev, hstdev, -⟩ := (bind_eq_ok _ _ _).mp h
      exact ⟨baselineStdev, hstdev⟩
    · rintro ⟨baselineStdev, hstdev⟩
      rw [hstdev, ok_bind]
      split
      · exact ⟨_, rfl⟩
      · exact ⟨_, rfl⟩

variable (d : AnomalyDetector) (s : Sample)

-- A call that does not look at a window.
def Ignored : Prop := metricOf s.metric = none ∨ s.value.isBool = true

theorem detect_ignored (h : Ignored s) : d.detect s = .ok (false, d) := by
  unfold AnomalyDetector.detect
  cases hm : metricOf s.metric with
  | none => rfl
  | some m =>
      have hbool : s.value.isBool = true := h.resolve_left (by simp [hm])
      exact if_pos hbool

theorem detect_measured (m : Metric) (hm : metricOf s.metric = some m) (hbool : s.value.isBool = false) :
    d.detect s = match toFloat s.foreign s.value with
      | .ok candidate => d.measure m candidate
      | .error e => if e.isTypeError || e.isValueError then .ok (false, d) else .error e := by
  unfold AnomalyDetector.detect
  rw [hm, hbool]
  rfl

theorem number_eq (hbool : s.value.isBool = false) : s.number = match toFloat s.foreign s.value with
      | .ok x => if Json.isFinite x then some x else none
      | .error _ => none := by
  rw [Sample.number, hbool]
  rfl

theorem measure_isOk_iff (m : Metric) (candidate : Float) :
    (∃ r, d.measure m candidate = .ok r) ↔ (Json.isFinite candidate = true → 5 ≤ (d.windows m).items.length →
      varianceOf ((d.windows m).items.map exactRatio) < overflowThreshold ^ 2) := by
  unfold AnomalyDetector.measure
  by_cases hfinite : Json.isFinite candidate = true
  · rw [if_pos hfinite, imp_iff_right hfinite, ← isAnomaly_isOk_iff d.zThreshold _ candidate]
    constructor
    · rintro ⟨r, h⟩
      obtain ⟨answer, hanswer, -⟩ := (bind_eq_ok _ _ _).mp h
      exact ⟨answer, hanswer⟩
    · rintro ⟨answer, hanswer⟩
      rw [hanswer, ok_bind]
      exact ⟨_, rfl⟩
  · rw [if_neg hfinite]
    exact iff_of_true ⟨_, rfl⟩ fun h => absurd h hfinite

theorem detect_isOk_iff : (∃ r, d.detect s = .ok r) ↔ Meets d s := by
  by_cases hignored : Ignored s
  · rw [detect_ignored d s hignored]
    refine iff_of_true ⟨_, rfl⟩ fun m hm hbool => ?_
    rcases hignored with hnone | htrue
    · simp [hnone] at hm
    · simp [htrue] at hbool
  obtain ⟨hmetric, hbool⟩ := not_or.mp hignored
  rw [Bool.not_eq_true] at hbool
  obtain ⟨m, hm⟩ := Option.ne_none_iff_exists'.mp hmetric
  have hmeets : Meets d s ↔
      (∀ e, toFloat s.foreign s.value = .error e → (e.isTypeError || e.isValueError) = true) ∧
        (s.number.isSome = true → 5 ≤ (d.windows m).items.length →
          varianceOf ((d.windows m).items.map exactRatio) < overflowThreshold ^ 2) := by
    constructor
    · exact fun h => h m hm hbool
    · intro h m' hm' _
      obtain rfl := Option.some.inj (hm.symm.trans hm')
      exact h
  rw [hmeets, detect_measured d s m hm hbool, number_eq s hbool]
  cases hfloat : toFloat s.foreign s.value with
  | ok candidate =>
      dsimp only
      rw [measure_isOk_iff, and_iff_right (by nofun)]
      by_cases hfinite : Json.isFinite candidate = true
      · rw [if_pos hfinite]
        simp [hfinite]
      · rw [if_neg hfinite]
        simp [hfinite]
  | error e =>
      dsimp only
      by_cases hcaught : (e.isTypeError || e.isValueError) = true
      · rw [if_pos hcaught]
        refine iff_of_true ⟨_, rfl⟩ ⟨fun e' he' => ?_, nofun⟩
        rw [← Except.error.inj he']
        exact hcaught
      · rw [if_neg hcaught]
        exact iff_of_false nofun fun h => hcaught (h.1 e rfl)

theorem numberFor_ignored (h : Ignored s) (m : Metric) : s.numberFor m = none := by
  rw [Sample.numberFor]
  rcases h with hnone | htrue
  · rw [hnone, if_neg (by simp)]
  · rw [Sample.number, if_pos htrue, ite_self]

-- A call that returns has recorded the value that it was given.
theorem detect_eq_ok (answer : Bool) (d' : AnomalyDetector) (h : d.detect s = .ok (answer, d')) :
    d'.windowSize = d.windowSize ∧ ∀ m, (d'.windows m).items = match s.numberFor m with
        | some x => ((d.windows m).append x).items
        | none => (d.windows m).items := by
  by_cases hignored : Ignored s
  · rw [detect_ignored d s hignored] at h
    obtain ⟨-, rfl⟩ := Prod.mk.inj (Except.ok.inj h)
    exact ⟨rfl, fun m => by rw [numberFor_ignored s hignored m]⟩
  obtain ⟨hmetric, hbool⟩ := not_or.mp hignored
  rw [Bool.not_eq_true] at hbool
  obtain ⟨m, hm⟩ := Option.ne_none_iff_exists'.mp hmetric
  rw [detect_measured d s m hm hbool] at h
  have hnumber := number_eq s hbool
  have hkept : s.number = none → d' = d → d'.windowSize = d.windowSize ∧ ∀ m, (d'.windows m).items =
      match s.numberFor m with
        | some x => ((d.windows m).append x).items
        | none => (d.windows m).items := by
    rintro hnone rfl
    exact ⟨rfl, fun m => by rw [Sample.numberFor, hnone, ite_self]⟩
  cases hfloat : toFloat s.foreign s.value with
  | ok candidate =>
      rw [hfloat] at h hnumber
      dsimp only at h hnumber
      rw [AnomalyDetector.measure] at h
      by_cases hfinite : Json.isFinite candidate = true
      · rw [if_pos hfinite] at h hnumber
        obtain ⟨found, -, hrecord⟩ := (bind_eq_ok _ _ _).mp h
        obtain ⟨-, rfl⟩ := Prod.mk.inj (Except.ok.inj hrecord)
        refine ⟨rfl, fun other => ?_⟩
        rw [Sample.numberFor, hm, hnumber]
        by_cases hother : other = m
        · obtain rfl := hother
          rw [if_pos rfl]
          exact congrArg Deque.items (if_pos rfl)
        · rw [if_neg fun heq => hother (Option.some.inj heq).symm]
          exact congrArg Deque.items (if_neg hother)
      · rw [if_neg hfinite] at h hnumber
        exact hkept hnumber (Prod.mk.inj (Except.ok.inj h)).2.symm
  | error e =>
      rw [hfloat] at h hnumber
      dsimp only at h hnumber
      split at h
      · exact hkept hnumber (Prod.mk.inj (Except.ok.inj h)).2.symm
      · cases h

-- The answer is about the window of the metric alone.
theorem answer_of_window (d' : AnomalyDetector) (hthreshold : d.zThreshold = d'.zThreshold)
    (hwindow : ∀ m, metricOf s.metric = some m → (d.windows m).items = (d'.windows m).items) :
    (d.detect s).map Prod.fst = (d'.detect s).map Prod.fst := by
  by_cases hignored : Ignored s
  · rw [detect_ignored d s hignored, detect_ignored d' s hignored]
    rfl
  obtain ⟨hmetric, hbool⟩ := not_or.mp hignored
  rw [Bool.not_eq_true] at hbool
  obtain ⟨m, hm⟩ := Option.ne_none_iff_exists'.mp hmetric
  rw [detect_measured d s m hm hbool, detect_measured d' s m hm hbool]
  cases toFloat s.foreign s.value with
  | ok candidate =>
      dsimp only
      rw [AnomalyDetector.measure, AnomalyDetector.measure, ← hwindow m hm, ← hthreshold]
      split
      · cases AnomalyDetector.isAnomaly d.zThreshold (d.windows m).items candidate with
        | error e => rfl
        | ok answer => rfl
      · rfl
  | error e =>
      dsimp only
      split
      · rfl
      · rfl

end Step

section Runs

-- The windows hold the last of the values that were submitted.
structure Holds (windowSize : Nat) (history : List Sample) (d : AnomalyDetector) : Prop where
  size : d.windowSize = windowSize
  windows : ∀ m, (d.windows m).items = (history.filterMap (Sample.numberFor · m)).rtake windowSize

theorem holds_after (windowSize : Nat) (history : List Sample) (d : AnomalyDetector) (s : Sample)
    (h : Holds windowSize history d) (hmeets : Meets d s) : Holds windowSize (history ++ [s]) (d.after s) := by
  obtain ⟨⟨answer, d'⟩, hdetect⟩ := (detect_isOk_iff d s).mpr hmeets
  obtain ⟨hsize, hwindows⟩ := detect_eq_ok d s answer d' hdetect
  have hafter : d.after s = d' := by rw [AnomalyDetector.after, hdetect]
  rw [hafter]
  refine ⟨hsize.trans h.size, fun m => ?_⟩
  rw [hwindows m, List.filterMap_append]
  cases hnumber : s.numberFor m with
  | none => simpa [hnumber] using h.windows m
  | some x =>
      have hrtake := h.windows m
      have hlast : [s].filterMap (Sample.numberFor · m) = [x] := by simp [hnumber]
      rw [← h.size] at hrtake ⊢
      rw [hlast]
      exact Deque.items_append_of_rtake (d.windows m) _ x hrtake

theorem init_holds (windowSize zThreshold : PyData) (d : AnomalyDetector)
    (hinit : AnomalyDetector.init windowSize zThreshold = .ok d) :
    windowSize = .int d.windowSize ∧ Holds d.windowSize [] d := by
  unfold AnomalyDetector.init at hinit
  obtain ⟨size, hsize, hinit⟩ := (bind_eq_ok _ _ _).mp hinit
  obtain ⟨z, -, hinit⟩ := (bind_eq_ok _ _ _).mp hinit
  obtain ⟨finite, -, hinit⟩ := (bind_eq_ok _ _ _).mp hinit
  have hcast : windowSize = .int size := by
    cases windowSize with
    | int n =>
        dsimp only at hsize
        split at hsize
        · cases hsize
        · rw [← Except.ok.inj hsize, Int.toNat_of_nonneg (by omega)]
    | _ => cases hsize
  split at hinit
  · cases hinit
  · split at hinit
    · cases hinit
    · obtain rfl := Except.ok.inj hinit
      exact ⟨hcast, rfl, fun m => (List.rtake_nil size).symm⟩

theorem holds_run (windowSize : Nat) (d : AnomalyDetector) (h : Holds windowSize [] d) (samples : List Sample)
    (hmeets : EachStep AnomalyDetector.after Meets d samples) :
    Holds windowSize samples (runFrom AnomalyDetector.after d samples) := by
  induction samples using List.reverseRecOn with
  | nil => exact h
  | append_singleton samples s ih =>
      obtain ⟨hbefore, hlast, -⟩ := (eachStep_append Meets d samples [s]).mp hmeets
      rw [runFrom_concat]
      exact holds_after windowSize samples _ s (ih hbefore) hlast

-- Every call of a run returns and finds the last valid values exactly when every call meets
-- the condition, and an answer depends on the window of its metric alone.
theorem window_run_iff (windowSize zThreshold : PyData) (d : AnomalyDetector)
    (hinit : AnomalyDetector.init windowSize zThreshold = .ok d) (samples : List Sample) :
    windowSize = .int d.windowSize ∧
      ((EachStep AnomalyDetector.after (fun d s => ∃ r, d.detect s = .ok r) d samples ∧
          ∀ before, before <+: samples → ∀ m, ((runFrom AnomalyDetector.after d before).windows m).items =
            (before.filterMap (Sample.numberFor · m)).rtake d.windowSize) ↔
        EachStep AnomalyDetector.after Meets d samples) ∧
      ∀ (d₁ d₂ : AnomalyDetector) (s : Sample), d₁.zThreshold = d₂.zThreshold →
        (∀ m, metricOf s.metric = some m → (d₁.windows m).items = (d₂.windows m).items) →
        (d₁.detect s).map Prod.fst = (d₂.detect s).map Prod.fst := by
  obtain ⟨hsize, hholds⟩ := init_holds windowSize zThreshold d hinit
  have hreturns : (fun d s => ∃ r, AnomalyDetector.detect d s = .ok r) = Meets := by
    funext d s
    exact propext (detect_isOk_iff d s)
  rw [hreturns]
  refine ⟨hsize, ⟨And.left, fun h => ⟨h, fun before hbefore => ?_⟩⟩, fun d₁ d₂ s => answer_of_window d₁ s d₂⟩
  obtain ⟨rest, rfl⟩ := hbefore
  exact (holds_run d.windowSize d hholds before ((eachStep_append Meets d before rest).mp h).1).windows

theorem init_default : ∃ d, AnomalyDetector.init (.int 20) (.float 2.5) = .ok d := by
  have hok : (AnomalyDetector.init (.int 20) (.float 2.5)).toOption.isSome = true := by decide +kernel
  obtain ⟨d, hd⟩ := Option.isSome_iff_exists.mp hok
  exact ⟨d, toOption_eq_some _ _ hd⟩

def latencySample (value : PyData) : Sample := ⟨.str (py "latency"), value, .error .typeError⟩

theorem metricOf_latencySample (value : PyData) : metricOf (latencySample value).metric = some .latency := by
  have h : metricOf (.str (py "latency")) = some .latency := by decide
  exact h

def smallDetector : AnomalyDetector := ⟨5, .float 2.5, fun _ => .empty⟩

-- Six valid values, and between them a text that is no number and a bool.
def latencySamples : List Sample :=
  [.int 100, .int 101, .str (py "n/a"), .int 102, .int 103, .bool true, .int 104, .int 105].map latencySample

theorem meets_of_detect (d : AnomalyDetector) (s : Sample) (h : (d.detect s).toOption.isSome = true) : Meets d s := by
  obtain ⟨r, hr⟩ := Option.isSome_iff_exists.mp h
  exact (detect_isOk_iff d s).mp ⟨r, toOption_eq_some _ _ hr⟩

-- The first value is lost to the sixth one, and the invalid ones leave no trace.
theorem window_of_five_samples :
    ((runFrom AnomalyDetector.after smallDetector latencySamples).windows .latency).items =
      [101.0, 102.0, 103.0, 104.0, 105.0] := by
  have hinit : AnomalyDetector.init (.int 5) (.float 2.5) = .ok smallDetector := by
    have hfinite : (PyNum.float 2.5).isFinite = .ok true := by decide +kernel
    have hpositive : (PyNum.float 2.5).le (.int 0) = false := by decide +kernel
    have hnumber : (PyData.float 2.5).number? = some (.float 2.5) := rfl
    rw [AnomalyDetector.init, hnumber]
    simp only [ofOption, ok_bind, hfinite, hpositive]
    rfl
  obtain ⟨-, hrun, -⟩ := window_run_iff (.int 5) (.float 2.5) smallDetector hinit latencySamples
  have hmeets : EachStep AnomalyDetector.after Meets smallDetector latencySamples := by
    refine ⟨?_, ?_, ?_, ?_, ?_, ?_, ?_, ?_, trivial⟩
    all_goals
      refine meets_of_detect _ _ ?_
      decide +kernel
  rw [(hrun.mpr hmeets).2 latencySamples (List.prefix_refl _) .latency]
  decide +kernel

-- An int that is too large for a float.
theorem large_int_raises : ∃ d, AnomalyDetector.init (.int 20) (.float 2.5) = .ok d ∧
    d.detect (latencySample (.int (10 ^ 400))) = .error .overflowError := by
  obtain ⟨d, hinit⟩ := init_default
  have hfloat : toFloat (.error .typeError) (.int (10 ^ 400)) = .error .overflowError := by decide +kernel
  refine ⟨d, hinit, ?_⟩
  rw [detect_measured d _ .latency (metricOf_latencySample _) rfl, latencySample]
  dsimp only
  rw [hfloat]
  rfl

end Runs

end V91Core.Anomaly
