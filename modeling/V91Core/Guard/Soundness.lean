import V91Core.Guard.Policy

namespace V91Core.Guard

open V91Core.Python

section Checks

theorem require_eq_ok (ok : Bool) (code reason : String) (u : Unit) :
    require ok code reason = .ok u ↔ ok = true := by
  rw [require]
  split <;> simp [*]

theorem checkTexts_eq_ok (r : Request) (u : Unit) :
    checkTexts r = .ok u ↔ isText (r.get "action_id") = true ∧ isShortText (r.get "purpose") = true ∧
      isShortText (r.get "expected_effect") = true := by
  simp only [checkTexts, bind_eq_ok, require_eq_ok, exists_and_left, exists_const]

theorem knownClass_eq_ok (value : PyData) (c : ActionClass) :
    knownClass value = .ok c ↔ value = .str c.name := by
  cases value with
  | str name =>
      rw [knownClass, ofOption_eq_ok, ActionClass.ofName?_eq_some, PyData.str.injEq]
      exact eq_comm
  | _ => simp [knownClass, ofOption]

theorem isFlag_iff (value : Option PyData) :
    isFlag value = true ↔ value = none ∨ ∃ b, value = some (.bool b) := by
  unfold isFlag
  split <;> simp_all

theorem checkFlags_eq_ok (r : Request) (fields : List String) (u : Unit) :
    checkFlags r fields = .ok u ↔ ∀ field ∈ fields, isFlag (r (py field)) = true := by
  induction fields with
  | nil => simp [checkFlags]
  | cons field fields ih =>
      simp only [checkFlags, bind_eq_ok, require_eq_ok, exists_and_left, exists_const, ih,
        List.forall_mem_cons]

theorem checkEstimate_eq_ok (field : String) (maximum : Nat) (value : PyData) (u : Unit) :
    checkEstimate field maximum value = .ok u ↔ ∃ n : Nat, value = .int n ∧ n ≤ maximum := by
  cases value with
  | int n =>
      by_cases hneg : n < 0
      · simp only [checkEstimate, if_pos hneg, reduceCtorEq, PyData.int.injEq, false_iff, not_exists]
        omega
      · by_cases hover : maximum < n
        · have herror : checkEstimate field maximum (.int n) ≠ .ok u := by
            simp only [checkEstimate, if_neg hneg, if_pos hover]
            split <;> simp
          refine iff_of_false herror ?_
          simp only [PyData.int.injEq, not_exists]
          omega
        · simp only [checkEstimate, if_neg hneg, if_neg hover, PyData.int.injEq, true_iff]
          exact ⟨n.toNat, by omega, by omega⟩
  | _ => simp [checkEstimate]

theorem checkEstimates_eq_ok (r : Request) (fields : List (String × Nat)) (u : Unit) :
    checkEstimates r fields = .ok u ↔ ∀ f ∈ fields, ∃ n : Nat, r.estimate f.1 = .int n ∧ n ≤ f.2 := by
  induction fields with
  | nil => simp [checkEstimates]
  | cons f fields ih =>
      simp only [checkEstimates, bind_eq_ok, checkEstimate_eq_ok, exists_const, ih, List.forall_mem_cons]

end Checks

section Effects

variable (r : Request) (c : ActionClass)

-- The class and the flag of the request are two ways to declare an effect.
def UsesNetwork : Prop := c ∈ networkClasses ∨ r.declares "network_required" = true

def ChangesModel : Prop := c = .modelChange ∨ r.declares "model_change" = true

def ChangesProduction : Prop := c = .productionChange ∨ r.declares "production_change" = true

def Mutates : Prop := c ∈ mutatingClasses ∨ ChangesModel r c ∨ ChangesProduction r c

end Effects

section Soundness

variable (p : GuardPolicy) (r : Request)

-- What the policy grants to a request of this class, apart from the approval.
structure Granted (c : ActionClass) : Prop where
  named : r.get "action_class" = .str c.name
  known : c ∈ knownClasses
  notDenied : c ∉ deniedClasses
  capability : c ∈ p.allowedCapabilities
  estimates : ∀ f ∈ p.numericFields, ∃ n : Nat, r.estimate f.1 = .int n ∧ n ≤ f.2
  network : UsesNetwork r c → p.allowNetwork = true
  model : ChangesModel r c → p.allowModelChanges = true
  production : ChangesProduction r c → p.allowProductionChanges = true

-- The request has the form that the docstring asks for.
structure WellFormed : Prop where
  actionId : isText (r.get "action_id") = true
  purpose : isShortText (r.get "purpose") = true
  expectedEffect : isShortText (r.get "expected_effect") = true
  flags : ∀ field ∈ flagFields, isFlag (r (py field)) = true

-- What an allowed request has to satisfy.
structure Sound (humanApproved : PyData) (c : ActionClass) : Prop extends Granted p r c where
  approval : Mutates r c → p.requireHumanApprovalForMutations = true → humanApproved = .bool true

theorem checkEffects_eq_ok (approved : Bool) (c : ActionClass) (u : Unit) :
    p.checkEffects approved r c = .ok u ↔
      c ∈ p.allowedCapabilities ∧ (UsesNetwork r c → p.allowNetwork = true) ∧
      (ChangesModel r c → p.allowModelChanges = true) ∧
      (ChangesProduction r c → p.allowProductionChanges = true) ∧
      (c ∈ mutatingClasses → p.requireHumanApprovalForMutations = true → approved = true) := by
  have hbool : ∀ (b allowed : Bool) (effect : Prop), (b = true ↔ effect) →
      ((!(b && !allowed)) = true ↔ (effect → allowed = true)) := by
    intro b allowed effect h
    rw [← h]
    cases b <;> cases allowed <;> simp
  have hnetwork := hbool (decide (c ∈ networkClasses) || r.declares "network_required") p.allowNetwork
    (UsesNetwork r c) (by simp [UsesNetwork])
  have hmodel := hbool (decide (c = .modelChange) || r.declares "model_change") p.allowModelChanges
    (ChangesModel r c) (by simp [ChangesModel])
  have hproduction := hbool (decide (c = .productionChange) || r.declares "production_change")
    p.allowProductionChanges (ChangesProduction r c) (by simp [ChangesProduction])
  have happroval := hbool (decide (c ∈ mutatingClasses) && p.requireHumanApprovalForMutations) approved
    (c ∈ mutatingClasses ∧ p.requireHumanApprovalForMutations = true) (by simp)
  by_cases hc : c ∈ p.allowedCapabilities
  · simp only [GuardPolicy.checkEffects, hc, not_true_eq_false, if_false, bind_eq_ok, require_eq_ok,
      exists_and_left, exists_const, hnetwork, hmodel, hproduction, happroval, true_and, and_imp]
  · simp [GuardPolicy.checkEffects, hc, bind, Except.bind]

-- The checks pass exactly for a well-formed request that the policy grants, where
-- the last one asks for the approval by the class alone.
theorem checkRequest_eq_ok (approved : Bool) (c : ActionClass) :
    p.checkRequest approved r = .ok c ↔ WellFormed r ∧ Granted p r c ∧
      (c ∈ mutatingClasses → p.requireHumanApprovalForMutations = true → approved = true) := by
  have hknown : c ∈ knownClasses := by
    cases c <;> decide
  simp only [GuardPolicy.checkRequest, bind_eq_ok, checkTexts_eq_ok, knownClass_eq_ok, require_eq_ok,
    checkFlags_eq_ok, checkEstimates_eq_ok, checkEffects_eq_ok, exists_and_left, exists_const,
    Bool.not_eq_true', decide_eq_false_iff_not, Except.ok.injEq]
  constructor
  · rintro ⟨⟨hid, hpurpose, heffect⟩, c', hnamed, hdenied, hflags, hestimates,
      ⟨hcapability, hnetwork, hmodel, hproduction, happroval⟩, rfl⟩
    exact ⟨⟨hid, hpurpose, heffect, hflags⟩,
      ⟨hnamed, hknown, hdenied, hcapability, hestimates, hnetwork, hmodel, hproduction⟩, happroval⟩
  · rintro ⟨hform, hgranted, happroval⟩
    exact ⟨⟨hform.actionId, hform.purpose, hform.expectedEffect⟩, c, hgranted.named, hgranted.notDenied,
      hform.flags, hgranted.estimates,
      ⟨hgranted.capability, hgranted.network, hgranted.model, hgranted.production, happroval⟩, rfl⟩

theorem allows_given (rt : Runtime) (humanApproved : PyData) :
    allows rt (some r) (.given p) humanApproved = true ↔
      ∃ approved c, humanApproved = .bool approved ∧ p.checkRequest approved r = .ok c := by
  have hdeny : ∀ code reason d, deny rt r code reason = .ok d → d.allowed = false := by
    intro code reason d h
    by_cases hclass : (r.get "action_class").truthy = true
    · simp only [deny, hclass, if_true, bind_eq_ok, Except.ok.injEq] at h
      obtain ⟨name, -, rfl⟩ := h
      rfl
    · simp only [deny, if_neg hclass, bind_eq_ok, Except.ok.injEq] at h
      obtain ⟨name, -, rfl⟩ := h
      rfl
  cases humanApproved with
  | bool approved =>
      simp only [allows, authorizeAction, decideRequest, PyData.bool.injEq, exists_and_left,
        exists_eq_left']
      cases hcheck : p.checkRequest approved r with
      | ok c => simp [allow]
      | error stop =>
          cases stop with
          | raise e => simp
          | deny code reason =>
              simp only [reduceCtorEq, exists_false, iff_false, Bool.not_eq_true]
              cases hd : deny rt r code reason with
              | ok d => exact hdeny code reason d hd
              | error e => rfl
  | _ => simp [allows, authorizeAction, invalid]

-- The approval check reads the class and not the flags. A request of a class that
-- does not mutate can declare a change by its flag and pass without an approval.
def Unapproved (humanApproved : PyData) : Prop :=
  WellFormed r ∧ (∃ c, Granted p r c ∧ c ∉ mutatingClasses ∧
    (r.declares "model_change" = true ∨ r.declares "production_change" = true)) ∧
  p.requireHumanApprovalForMutations = true ∧ humanApproved = .bool false

-- Whatever is allowed is sound, except for the changes that only a flag declares.
theorem allowed_sound_iff (rt : Runtime) (humanApproved : PyData) :
    (allows rt (some r) (.given p) humanApproved = true → ∃ c, Sound p r humanApproved c) ↔
      ¬ Unapproved p r humanApproved := by
  constructor
  · rintro hsound ⟨hform, ⟨c, hgranted, hclass, hflag⟩, hrequire, rfl⟩
    have hallowed : allows rt (some r) (.given p) (.bool false) = true :=
      (allows_given p r rt _).mpr
        ⟨false, c, rfl, (checkRequest_eq_ok p r false c).mpr ⟨hform, hgranted, fun h => absurd h hclass⟩⟩
    obtain ⟨c', hsound⟩ := hsound hallowed
    have hmutates : Mutates r c' := by
      rcases hflag with hflag | hflag
      · exact .inr (.inl (.inr hflag))
      · exact .inr (.inr (.inr hflag))
    have happroval := hsound.approval hmutates hrequire
    simp at happroval
  · intro hnot hallowed
    obtain ⟨approved, c, rfl, hcheck⟩ := (allows_given p r rt _).mp hallowed
    obtain ⟨hform, hgranted, happroval⟩ := (checkRequest_eq_ok p r approved c).mp hcheck
    refine ⟨c, hgranted, fun hmutates hrequire => congrArg PyData.bool ?_⟩
    by_cases hclass : c ∈ mutatingClasses
    · exact happroval hclass hrequire
    · by_contra hfalse
      -- The two change classes are mutating, so the change is declared by a flag.
      have hflag : r.declares "model_change" = true ∨ r.declares "production_change" = true := by
        rcases hmutates with h | (rfl | h) | (rfl | h)
        · exact absurd h hclass
        · exact absurd (by decide) hclass
        · exact .inl h
        · exact absurd (by decide) hclass
        · exact .inr h
      exact hnot ⟨hform, ⟨c, hgranted, hclass, hflag⟩, hrequire, by rw [Bool.not_eq_true] at hfalse; rw [hfalse]⟩

end Soundness

def Request.ofFields (fields : List (String × PyData)) : Request := fun key =>
  (fields.find? fun f => py f.1 = key).map Prod.snd

-- A read-only request that declares a model change by its flag.
def changeRequest : Request :=
  .ofFields [("action_id", .str (py "a-1")), ("action_class", .str (py "read_only")),
    ("purpose", .str (py "p")), ("expected_effect", .str (py "e")), ("model_change", .bool true)]

def changePolicy : GuardPolicy := { GuardPolicy.default with allowModelChanges := true }

theorem flagged_change_allowed :
    allows ⟨fun _ => zeroDigest, fun _ => false, 1000⟩ (some changeRequest) (.given changePolicy) (.bool false) =
        true ∧
      ¬ ∃ c, Sound changePolicy changeRequest (.bool false) c := by
  refine ⟨by decide +kernel, fun ⟨c, hsound⟩ => ?_⟩
  have hmutates : Mutates changeRequest c := .inr (.inl (.inr (by decide +kernel)))
  have happroval := hsound.approval hmutates rfl
  simp at happroval

end V91Core.Guard
