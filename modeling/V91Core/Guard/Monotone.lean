import V91Core.Guard.Soundness

namespace V91Core.Guard

open V91Core.Python

-- `q` grants at least what `p` grants.
structure GuardPolicy.Looser (p q : GuardPolicy) : Prop where
  capabilities : ∀ c ∈ p.allowedCapabilities, c ∈ q.allowedCapabilities
  steps : p.maxSteps ≤ q.maxSteps
  externalCalls : p.maxExternalCalls ≤ q.maxExternalCalls
  costUnits : p.maxCostUnits ≤ q.maxCostUnits
  outputBytes : p.maxOutputBytes ≤ q.maxOutputBytes
  network : p.allowNetwork = true → q.allowNetwork = true
  modelChanges : p.allowModelChanges = true → q.allowModelChanges = true
  productionChanges : p.allowProductionChanges = true → q.allowProductionChanges = true
  approval : q.requireHumanApprovalForMutations = true → p.requireHumanApprovalForMutations = true

def estimateFields : List String := ["steps", "external_calls", "cost_units", "output_bytes"]

-- A flag that is absent or `False`.
def isClear (value : Option PyData) : Prop := value = none ∨ value = some (.bool false)

-- `r'` is the request `r` with estimates that are valid and no larger, and with
-- boolean flags that are clear wherever those of `r` are.
structure Request.Milder (r r' : Request) : Prop where
  same : ∀ key, (∀ field ∈ estimateFields ++ flagFields, key ≠ py field) → r' key = r key
  estimates : ∀ field ∈ estimateFields, ∃ n m : Nat,
    r'.estimate field = .int n ∧ r.estimate field = .int m ∧ n ≤ m
  flags : ∀ field ∈ flagFields, isFlag (r' (py field)) = true
  clear : ∀ field ∈ flagFields, isClear (r (py field)) → isClear (r' (py field))

section Policies

variable (p q : GuardPolicy)

theorem numericFields_names (f : String × Nat) (hf : f ∈ p.numericFields) : f.1 ∈ estimateFields := by
  have hnames : p.numericFields.map Prod.fst = estimateFields := rfl
  rw [← hnames]
  exact List.mem_map_of_mem hf

-- Each field has its limit in both policies.
theorem GuardPolicy.Looser.limit (h : p.Looser q) (f : String × Nat) (hf : f ∈ q.numericFields) :
    ∃ maximum, (f.1, maximum) ∈ p.numericFields ∧ maximum ≤ f.2 := by
  simp only [GuardPolicy.numericFields, List.mem_cons, List.not_mem_nil, or_false] at hf ⊢
  rcases hf with rfl | rfl | rfl | rfl
  · exact ⟨_, .inl rfl, h.steps⟩
  · exact ⟨_, .inr (.inl rfl), h.externalCalls⟩
  · exact ⟨_, .inr (.inr (.inl rfl)), h.costUnits⟩
  · exact ⟨_, .inr (.inr (.inr rfl)), h.outputBytes⟩

end Policies

section Requests

variable (r r' : Request)

theorem Request.Milder.get (h : r.Milder r') (key : String)
    (hkey : ∀ field ∈ estimateFields ++ flagFields, py key ≠ py field) : r'.get key = r.get key := by
  rw [Request.get, Request.get, h.same (py key) hkey]

theorem Request.Milder.texts (h : r.Milder r') (key : String)
    (hkey : key ∈ ["action_id", "action_class", "purpose", "expected_effect"]) : r'.get key = r.get key := by
  refine h.get r r' key ?_
  revert key
  decide +kernel

theorem declares_iff (field : String) (hflag : isFlag (r (py field)) = true) :
    r.declares field = true ↔ ¬ isClear (r (py field)) := by
  rcases (isFlag_iff _).mp hflag with hnone | ⟨b, hb⟩
  · simp [Request.declares, isClear, hnone, PyData.truthy]
  · simp [Request.declares, isClear, hb, PyData.truthy]

-- No effect is declared that `r` does not declare.
theorem Request.Milder.declares (h : r.Milder r') (hr : WellFormed r) (field : String)
    (hfield : field ∈ flagFields) (hdeclared : r'.declares field = true) : r.declares field = true := by
  rw [declares_iff r field (hr.flags field hfield)]
  intro hclear
  exact (declares_iff r' field (h.flags field hfield)).mp hdeclared (h.clear field hfield hclear)

theorem Request.Milder.wellFormed (h : r.Milder r') (hr : WellFormed r) : WellFormed r' where
  actionId := by
    rw [h.texts r r' "action_id" (by decide)]
    exact hr.actionId
  purpose := by
    rw [h.texts r r' "purpose" (by decide)]
    exact hr.purpose
  expectedEffect := by
    rw [h.texts r r' "expected_effect" (by decide)]
    exact hr.expectedEffect
  flags := h.flags

end Requests

section Monotone

variable (p q : GuardPolicy) (r r' : Request)

theorem granted_mono (hpq : p.Looser q) (hr : r.Milder r') (hform : WellFormed r) (c : ActionClass)
    (h : Granted p r c) : Granted q r' c where
  named := by
    rw [hr.texts r r' "action_class" (by decide)]
    exact h.named
  known := h.known
  notDenied := h.notDenied
  capability := hpq.capabilities c h.capability
  estimates := by
    intro f hf
    obtain ⟨maximum, hmem, hmax⟩ := hpq.limit p q f hf
    obtain ⟨n, m, hn, hm, hle⟩ := hr.estimates f.1 (numericFields_names q f hf)
    obtain ⟨m', hm', hlimit⟩ := h.estimates (f.1, maximum) hmem
    rw [hm, PyData.int.injEq] at hm'
    exact ⟨n, hn, by omega⟩
  network := by
    intro heffect
    refine hpq.network (h.network (heffect.imp_right ?_))
    exact hr.declares r r' hform "network_required" (by decide)
  model := by
    intro heffect
    refine hpq.modelChanges (h.model (heffect.imp_right ?_))
    exact hr.declares r r' hform "model_change" (by decide)
  production := by
    intro heffect
    refine hpq.productionChanges (h.production (heffect.imp_right ?_))
    exact hr.declares r r' hform "production_change" (by decide)

-- A looser policy and a milder request never turn a permission into a refusal.
theorem allowed_mono (rt : Runtime) (hpq : p.Looser q) (hr : r.Milder r') (a b : Bool)
    (hab : a = true → b = true) (h : allows rt (some r) (.given p) (.bool a) = true) :
    allows rt (some r') (.given q) (.bool b) = true := by
  obtain ⟨approved, c, happroved, hcheck⟩ := (allows_given p r rt _).mp h
  obtain rfl : a = approved := by simpa using happroved
  obtain ⟨hform, hgranted, happroval⟩ := (checkRequest_eq_ok p r a c).mp hcheck
  refine (allows_given q r' rt _).mpr ⟨b, c, rfl, (checkRequest_eq_ok q r' b c).mpr ?_⟩
  refine ⟨hr.wellFormed r r' hform, granted_mono p q r r' hpq hr hform c hgranted, ?_⟩
  intro hclass hrequire
  exact hab (happroval hclass (hpq.approval hrequire))

-- A write with ten steps under an approval, and the same write with four steps
-- under a policy that asks for none.
def writeRequest (steps : Int) : Request :=
  .ofFields [("action_id", .str (py "a-1")), ("action_class", .str (py "file_write")),
    ("purpose", .str (py "p")), ("expected_effect", .str (py "e")), ("steps", .int steps)]

def writePolicy : GuardPolicy := { GuardPolicy.default with allowedCapabilities := [.fileWrite] }

def openPolicy : GuardPolicy :=
  { writePolicy with
    allowedCapabilities := [.readOnly, .fileWrite]
    maxExternalCalls := 5
    allowNetwork := true
    requireHumanApprovalForMutations := false }

theorem allowed_mono_write :
    allows ⟨fun _ => zeroDigest, fun _ => false, 1000⟩ (some (writeRequest 4)) (.given openPolicy) (.bool true) =
      true := by
  have hpq : writePolicy.Looser openPolicy :=
    ⟨by decide, by decide, by decide, by decide, by decide, by decide, by decide, by decide, by decide⟩
  have hr : (writeRequest 10).Milder (writeRequest 4) := by
    refine ⟨?_, ?_, ?_, ?_⟩
    · intro key hkey
      have hsteps : py "steps" ≠ key := (hkey "steps" (by decide)).symm
      simp [writeRequest, Request.ofFields, List.find?, hsteps]
    · intro field hfield
      fin_cases hfield
      · exact ⟨4, 10, rfl, rfl, by decide⟩
      · exact ⟨0, 0, rfl, rfl, by decide⟩
      · exact ⟨0, 0, rfl, rfl, by decide⟩
      · exact ⟨0, 0, rfl, rfl, by decide⟩
    · decide +kernel
    · intro field hfield _
      fin_cases hfield <;> exact .inl rfl
  exact allowed_mono writePolicy openPolicy (writeRequest 10) (writeRequest 4) _ hpq hr true true id
    (by decide +kernel)

end Monotone

end V91Core.Guard
