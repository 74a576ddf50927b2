import V91Core.Admission.Model
import V91Core.Python.Order

namespace V91Core.Admission

open V91Core.Python

inductive Resource where
  | cpu
  | ram
  | disk
  | vram
deriving DecidableEq

namespace Resource

def key : Resource → PyStr
  | .cpu => py "cpu_cores"
  | .ram => py "ram_mb"
  | .disk => py "disk_mb"
  | .vram => py "vram_mb"

def measured (m : ResourceMeasurements) : Resource → Option PyNum
  | .cpu => m.cpuCores
  | .ram => m.ramMb
  | .disk => m.diskMb
  | .vram => m.vramMb

def requested (request : AdmissionRequest) : Resource → PyData
  | .cpu => request.cpuCores
  | .ram => request.ramMb
  | .disk => request.diskMb
  | .vram => request.vramMb

-- Only VRAM may be left out of a request.
def Required (request : AdmissionRequest) (r : Resource) : Prop := r = .vram → isNone request.vramMb = false

end Resource

section Guards

variable (rt : Runtime) (others : PyStr → Attribute) (gate : ResourceAdmissionGate)

theorem flagged_eq_nil (fields : List (PyStr × Bool)) : flagged fields = [] ↔ ∀ f ∈ fields, f.2 = false := by
  simp [flagged]

theorem missingFields_eq_nil (m : ResourceMeasurements) :
    m.missingFields = [] ↔ ∀ r ≠ Resource.vram, isMissing (r.measured m) = false := by
  rw [ResourceMeasurements.missingFields, flagged_eq_nil]
  simp only [List.forall_mem_cons, List.not_mem_nil, false_implies, implies_true, and_true]
  constructor
  · rintro ⟨hcpu, hram, hdisk⟩ r hr
    cases r with
    | cpu => exact hcpu
    | ram => exact hram
    | disk => exact hdisk
    | vram => exact absurd rfl hr
  · intro h
    exact ⟨h .cpu (by decide), h .ram (by decide), h .disk (by decide)⟩

theorem getattr_resource (m : ResourceMeasurements) (r : Resource) :
    getattr others m r.key = .ofMeasured (r.measured m) := by
  cases r with
  | cpu => rfl
  | ram => rfl
  | disk => rfl
  | vram => rfl

theorem quotaViolations_eq_nil (m : ResourceMeasurements) (quota : List (PyStr × PyData)) :
    quotaViolations others m quota = .ok [] ↔
      ∀ entry ∈ quota, exceeds entry.2 (getattr others m entry.1) = .ok false := by
  induction quota with
  | nil => simp [quotaViolations]
  | cons entry quota ih =>
      obtain ⟨key, limit⟩ := entry
      rw [quotaViolations, List.forall_mem_cons, ← ih]
      simp only [bind_eq_ok, Except.ok.injEq]
      constructor
      · rintro ⟨violated, hviolated, violations, hviolations, hnil⟩
        cases violated with
        | true => cases hnil
        | false =>
            rw [if_neg Bool.false_ne_true] at hnil
            exact ⟨hviolated, hnil ▸ hviolations⟩
      · rintro ⟨hviolated, hviolations⟩
        exact ⟨false, hviolated, [], hviolations, rfl⟩

theorem deficit_eq_nil (name : PyStr) (requested : PyData) (measured : PyNum) :
    deficit rt name requested measured = .ok [] ↔ measured.lt (amount requested) = false := by
  unfold deficit
  by_cases h : measured.lt (amount requested) = true
  · rw [if_pos h, h]
    simp [bind_eq_ok]
  · rw [if_neg h]
    simpa using h

theorem vramDeficit_eq_nil (requested : PyData) (measured : Option PyNum) :
    vramDeficit rt requested measured = .ok (some []) ↔
      (isNone requested = false → ∃ n, measured = some n ∧ n.lt (amount requested) = false) := by
  unfold vramDeficit
  by_cases h : isNone requested = true
  · rw [if_pos h, h]
    simp
  · rw [if_neg h]
    have hrequired : isNone requested = false := by simpa using h
    cases measured with
    | none => simp [hrequired]
    | some n =>
        simp only [hrequired, Option.some.injEq, exists_eq_left', forall_const, ← deficit_eq_nil rt (py "vram_mb")]
        cases deficit rt (py "vram_mb") requested n <;> simp [Except.map]

def Allowed (result : Except PyExc AdmissionDecision) : Prop :=
  ∃ reason measurements, result = .ok ⟨.allowed, reason, measurements⟩

theorem allowed_conclude (m : ResourceMeasurements) (deficits : Option (List PyStr)) :
    Allowed (.ok (conclude m deficits)) ↔ deficits = some [] := by
  unfold conclude Allowed
  split
  · simp
  · simp
  · next deficits hne => simpa using hne

-- What none of the checks after the validity of the request objects to.
def Enough (request : AdmissionRequest) (m : ResourceMeasurements) : Prop :=
  ∀ r, Resource.Required request r → ∃ n, r.measured m = some n ∧ n.lt (amount (r.requested request)) = false

theorem allowed_compareResources (request : AdmissionRequest) (m : ResourceMeasurements) :
    Allowed (compareResources rt request m) ↔ Enough request m := by
  unfold compareResources
  constructor
  · rintro ⟨reason, measurements, h⟩
    split at h
    · next cpuCores ramMb diskMb hcpu hram hdisk =>
        obtain ⟨cpu, hcpuDeficit, h⟩ := (bind_eq_ok _ _ _).mp h
        obtain ⟨ram, hramDeficit, h⟩ := (bind_eq_ok _ _ _).mp h
        obtain ⟨disk, hdiskDeficit, h⟩ := (bind_eq_ok _ _ _).mp h
        obtain ⟨vram, hvramDeficit, h⟩ := (bind_eq_ok _ _ _).mp h
        have hnone := (allowed_conclude m _).mp ⟨reason, measurements, h⟩
        obtain ⟨vram, rfl, hnil⟩ := Option.map_eq_some_iff.mp hnone
        simp only [List.append_eq_nil_iff] at hnil
        obtain ⟨⟨⟨rfl, rfl⟩, rfl⟩, rfl⟩ := hnil
        intro r hr
        cases r with
        | cpu => exact ⟨cpuCores, hcpu, (deficit_eq_nil rt _ _ _).mp hcpuDeficit⟩
        | ram => exact ⟨ramMb, hram, (deficit_eq_nil rt _ _ _).mp hramDeficit⟩
        | disk => exact ⟨diskMb, hdisk, (deficit_eq_nil rt _ _ _).mp hdiskDeficit⟩
        | vram => exact (vramDeficit_eq_nil rt _ _).mp hvramDeficit (hr rfl)
    · cases h
  · intro h
    obtain ⟨cpuCores, hcpu, hcpuEnough⟩ := h .cpu nofun
    obtain ⟨ramMb, hram, hramEnough⟩ := h .ram nofun
    obtain ⟨diskMb, hdisk, hdiskEnough⟩ := h .disk nofun
    have hvram := (vramDeficit_eq_nil rt request.vramMb m.vramMb).mpr fun hrequired => h .vram fun _ => hrequired
    have hcpuDeficit := (deficit_eq_nil rt (py "cpu_cores") request.cpuCores cpuCores).mpr hcpuEnough
    have hramDeficit := (deficit_eq_nil rt (py "ram_mb") request.ramMb ramMb).mpr hramEnough
    have hdiskDeficit := (deficit_eq_nil rt (py "disk_mb") request.diskMb diskMb).mpr hdiskEnough
    simp only [Resource.measured] at hcpu hram hdisk
    simp only [hcpu, hram, hdisk, hcpuDeficit, hramDeficit, hdiskDeficit, hvram, bind, Except.bind]
    exact (allowed_conclude m (some [])).mpr rfl

-- No check denies the request, and none raises.
structure Passing (request : AdmissionRequest) (m : ResourceMeasurements) (now : PyNum) : Prop where
  valid : request.invalidFields = []
  measured : m.missingFields = []
  fresh : ∃ age, now.sub m.measuredAt = .ok age ∧ PyNum.lt (.float gate.freshness) age = false
  quota : ∀ entry ∈ gate.quota, exceeds entry.2 (getattr others m entry.1) = .ok false
  enough : Enough request m

theorem allowed_checkMeasured (request : AdmissionRequest) (m : ResourceMeasurements) (now : PyNum) :
    Allowed (checkMeasured rt others gate request m now) ↔
      (∃ age, now.sub m.measuredAt = .ok age ∧ PyNum.lt (.float gate.freshness) age = false) ∧
        (∀ entry ∈ gate.quota, exceeds entry.2 (getattr others m entry.1) = .ok false) ∧ Enough request m := by
  rw [← quotaViolations_eq_nil, ← allowed_compareResources rt]
  unfold checkMeasured
  constructor
  · rintro ⟨reason, measurements, h⟩
    obtain ⟨age, hage, h⟩ := (bind_eq_ok _ _ _).mp h
    split at h
    · obtain ⟨text, -, h⟩ := (bind_eq_ok _ _ _).mp h
      cases h
    · next hfresh =>
        obtain ⟨violations, hviolations, h⟩ := (bind_eq_ok _ _ _).mp h
        split at h
        · next hnil => exact ⟨⟨age, hage, by simpa using hfresh⟩, hnil ▸ hviolations, reason, measurements, h⟩
        · cases h
  · rintro ⟨⟨age, hage, hfresh⟩, hquota, reason, measurements, h⟩
    refine ⟨reason, measurements, ?_⟩
    simp only [hage, hfresh, hquota, bind, Except.bind, Bool.false_eq_true, if_false, if_true]
    exact h

-- The request is allowed when nothing denies it.
theorem allowed_iff (request : AdmissionRequest) (m : ResourceMeasurements) (now : PyNum) :
    Allowed (requestAdmission rt others gate request (some m) now) ↔ Passing others gate request m now := by
  have hdenied : ∀ reason measurements, ¬Allowed (.ok ⟨.denied, reason, measurements⟩) := by
    rintro reason measurements ⟨reason', measurements', h⟩
    cases h
  unfold requestAdmission
  by_cases hvalid : request.invalidFields = []
  · rw [if_neg (not_not.mpr hvalid)]
    by_cases hmeasured : m.missingFields = []
    · simp only [if_neg (not_not.mpr hmeasured)]
      rw [allowed_checkMeasured]
      exact ⟨fun h => ⟨hvalid, hmeasured, h.1, h.2.1, h.2.2⟩, fun h => ⟨h.fresh, h.quota, h.enough⟩⟩
    · simp only [if_pos hmeasured]
      exact iff_of_false (hdenied _ _) fun h => hmeasured h.measured
  · rw [if_pos hvalid]
    exact iff_of_false (hdenied _ _) fun h => hvalid h.valid

end Guards

section Evidence

variable (others : PyStr → Attribute) (gate : ResourceAdmissionGate) (request : AdmissionRequest)
  (m : ResourceMeasurements) (now : PyNum)

-- The requested amount is a number within what was measured and within the quota.
def Within (r : Resource) : Prop :=
  ∃ wanted n, (r.requested request).number? = some wanted ∧ r.measured m = some n ∧ wanted.le n = true ∧
    ∀ limit, (r.key, limit) ∈ gate.quota → ∃ l, comparand limit = some l ∧ wanted.le l = true

-- What an admission stands for.
structure Evidence : Prop where
  measured : ∀ r ≠ Resource.vram, ∃ n, r.measured m = some n ∧ n.IsReal ∧ PyNum.lt (.int 0) n = true
  vram : Resource.Required request .vram → (Resource.measured m .vram).isSome = true
  age : ∃ age, now.sub m.measuredAt = .ok age ∧ PyNum.le (.int 0) age = true ∧
    PyNum.le age (.float gate.freshness) = true
  amounts : ∀ r, Resource.Required request r → Within gate request m r

-- No value is one that the checks let pass by: a NaN, an infinity, or a time to come.
structure Plausible : Prop where
  measured : ∀ r ≠ Resource.vram, ∀ n, r.measured m = some n → n.IsReal
  vram : Resource.Required request .vram → ∀ n, Resource.measured m .vram = some n → n.IsNumber
  requested : ∀ n, request.cpuCores.number? = some n → n.IsNumber
  freshness : (PyNum.float gate.freshness).IsNumber
  age : ∀ age, now.sub m.measuredAt = .ok age → PyNum.le (.int 0) age = true
  limits : ∀ r, Resource.Required request r → ∀ limit, (r.key, limit) ∈ gate.quota →
    ∀ l, comparand limit = some l → l.IsNumber

theorem isBadInt_eq_false (bad : Int → Bool) (value : PyData) (h : isBadInt bad value = false) :
    ∃ n, value.number? = some (.int n) := by
  cases value with
  | int n => exact ⟨n, rfl⟩
  | _ => cases h

-- A valid request asks for numbers. Only the CPU cores may be a float.
theorem requested_number (hvalid : request.invalidFields = []) (r : Resource) (hr : Resource.Required request r) :
    ∃ wanted, (r.requested request).number? = some wanted ∧ (r ≠ .cpu → wanted.IsNumber) := by
  rw [AdmissionRequest.invalidFields, flagged_eq_nil] at hvalid
  simp only [List.forall_mem_cons, List.not_mem_nil, false_implies, implies_true, and_true] at hvalid
  obtain ⟨hcpu, hram, hdisk, hvram⟩ := hvalid
  cases r with
  | cpu =>
      unfold isBadNumber at hcpu
      split at hcpu
      · next n hn => exact ⟨n, hn, fun hne => absurd rfl hne⟩
      · cases hcpu
  | ram =>
      obtain ⟨n, hn⟩ := isBadInt_eq_false _ _ hram
      exact ⟨.int n, hn, fun _ => PyNum.isNumber_int n⟩
  | disk =>
      obtain ⟨n, hn⟩ := isBadInt_eq_false _ _ hdisk
      exact ⟨.int n, hn, fun _ => PyNum.isNumber_int n⟩
  | vram =>
      rw [hr rfl, Bool.not_false, Bool.true_and] at hvram
      obtain ⟨n, hn⟩ := isBadInt_eq_false _ _ hvram
      exact ⟨.int n, hn, fun _ => PyNum.isNumber_int n⟩

theorem amount_of_number (value : PyData) (n : PyNum) (h : value.number? = some n) : amount value = n := by
  rw [amount, h, Option.getD_some]

-- The quota is compared with what was measured.
theorem quota_not_exceeded (hquota : ∀ entry ∈ gate.quota, exceeds entry.2 (getattr others m entry.1) = .ok false)
    (r : Resource) (n : PyNum) (hn : r.measured m = some n) (limit : PyData) (hlimit : (r.key, limit) ∈ gate.quota) :
    ∃ l, comparand limit = some l ∧ l.lt n = false := by
  have h := hquota (r.key, limit) hlimit
  rw [getattr_resource, hn, Attribute.ofMeasured, exceeds] at h
  split at h
  · next l hl => exact ⟨l, hl, Except.ok.inj h⟩
  · cases h

variable (hpassing : Passing others gate request m now)

include hpassing

theorem evidence_of_plausible (h : Plausible gate request m now) : Evidence gate request m now := by
  have hnumber : ∀ r, Resource.Required request r → ∀ n, r.measured m = some n → n.IsNumber := by
    intro r hr n hn
    by_cases hvram : r = .vram
    · subst hvram
      exact h.vram hr n hn
    · exact (h.measured r hvram n hn).isNumber
  constructor
  · intro r hr
    obtain ⟨n, hn, -⟩ := hpassing.enough r fun hvram => absurd hvram hr
    have hreal := h.measured r hr n hn
    have hmissing := (missingFields_eq_nil m).mp hpassing.measured r hr
    rw [hn, isMissing] at hmissing
    exact ⟨n, hn, hreal, PyNum.lt_of_not_le _ _ (PyNum.isNumber_int 0) hreal.isNumber hmissing⟩
  · intro hr
    obtain ⟨n, hn, -⟩ := hpassing.enough .vram hr
    rw [hn]
    rfl
  · obtain ⟨age, hage, hfresh⟩ := hpassing.fresh
    have hzero := h.age age hage
    have hageNumber := (PyNum.isNumber_of_le _ _ hzero).2
    exact ⟨age, hage, hzero, PyNum.le_of_not_lt _ _ hageNumber h.freshness hfresh⟩
  · intro r hr
    obtain ⟨n, hn, henough⟩ := hpassing.enough r hr
    obtain ⟨wanted, hwanted, hwantedNumber⟩ := requested_number request hpassing.valid r hr
    have hwantedNumber : wanted.IsNumber := by
      by_cases hcpu : r = .cpu
      · subst hcpu
        exact h.requested wanted hwanted
      · exact hwantedNumber hcpu
    rw [amount_of_number _ wanted hwanted] at henough
    have hle := PyNum.le_of_not_lt _ _ hwantedNumber (hnumber r hr n hn) henough
    refine ⟨wanted, n, hwanted, hn, hle, fun limit hlimit => ?_⟩
    obtain ⟨l, hl, hnot⟩ := quota_not_exceeded others gate m hpassing.quota r n hn limit hlimit
    have hlimitLe := PyNum.le_of_not_lt _ _ (hnumber r hr n hn) (h.limits r hr limit hlimit l hl) hnot
    exact ⟨l, hl, PyNum.le_trans' _ _ _ hle hlimitLe⟩

omit hpassing in
theorem plausible_of_evidence (h : Evidence gate request m now) : Plausible gate request m now := by
  constructor
  · intro r hr n hn
    obtain ⟨n', hn', hreal, -⟩ := h.measured r hr
    obtain rfl := Option.some.inj (hn.symm.trans hn')
    exact hreal
  · intro hr n hn
    obtain ⟨wanted, n', -, hn', hle, -⟩ := h.amounts .vram hr
    obtain rfl := Option.some.inj (hn.symm.trans hn')
    exact (PyNum.isNumber_of_le _ _ hle).2
  · intro n hn
    obtain ⟨wanted, measured, hwanted, -, hle, -⟩ := h.amounts .cpu nofun
    obtain rfl := Option.some.inj (hn.symm.trans hwanted)
    exact (PyNum.isNumber_of_le _ _ hle).1
  · obtain ⟨age, -, -, hle⟩ := h.age
    exact (PyNum.isNumber_of_le _ _ hle).2
  · intro age hage
    obtain ⟨age', hage', hzero, -⟩ := h.age
    obtain rfl := Except.ok.inj (hage.symm.trans hage')
    exact hzero
  · intro r hr limit hlimit l hl
    obtain ⟨wanted, -, -, -, -, hlimits⟩ := h.amounts r hr
    obtain ⟨l', hl', hle⟩ := hlimits limit hlimit
    obtain rfl := Option.some.inj (hl.symm.trans hl')
    exact (PyNum.isNumber_of_le _ _ hle).2

end Evidence

section Main

variable (rt : Runtime) (others : PyStr → Attribute) (gate : ResourceAdmissionGate)

-- An admission has the evidence behind it exactly where no implausible value gets past
-- the checks.
theorem admission_evidence_iff (request : AdmissionRequest) (m : ResourceMeasurements) (now : PyNum) :
    (Allowed (requestAdmission rt others gate request (some m) now) → Evidence gate request m now) ↔
      (Passing others gate request m now → Plausible gate request m now) := by
  rw [allowed_iff]
  constructor
  · intro h hpassing
    exact plausible_of_evidence gate request m now (h hpassing)
  · intro h hpassing
    exact evidence_of_plausible others gate request m now hpassing (h hpassing)

def sampleRuntime : Runtime where
  sha256 _ := zeroDigest
  printable _ := true
  nesting := 100

-- The CPU cores were measured as NaN, and the measurement is from the future.
theorem unmeasured_cpu_admitted :
    let gate : ResourceAdmissionGate := ⟨30.0, []⟩
    let request : AdmissionRequest := ⟨.int 4, .int 8000, .int 1000, .none⟩
    let m : ResourceMeasurements :=
      ⟨some (.float (0.0 / 0.0)), some (.int 16000), none, some (.int 500000), .float 2000.0⟩
    ¬(Allowed (requestAdmission sampleRuntime (fun _ => .absent) gate request (some m)
        (.float 1000.0)) → Evidence gate request m (.float 1000.0)) := by
  intro gate request m h
  have hverdict : ((requestAdmission sampleRuntime (fun _ => .absent) gate request (some m)
      (.float 1000.0)).map (·.verdict)).toOption = some .allowed := by decide +kernel
  have hallowed : Allowed (requestAdmission sampleRuntime (fun _ => .absent) gate request
      (some m) (.float 1000.0)) := by
    cases hresult : requestAdmission sampleRuntime (fun _ => .absent) gate request (some m)
        (.float 1000.0) with
    | error e =>
        rw [hresult] at hverdict
        cases hverdict
    | ok decision =>
        obtain ⟨verdict, reason, measurements⟩ := decision
        rw [hresult] at hverdict
        obtain rfl := Option.some.inj hverdict
        exact ⟨reason, measurements, rfl⟩
  obtain ⟨n, hn, -, hpositive⟩ := (h hallowed).measured .cpu (by decide)
  obtain rfl := Option.some.inj hn
  revert hpositive
  decide +kernel

end Main

end V91Core.Admission
