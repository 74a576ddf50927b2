import V91Core.Effect.Run

namespace V91Core.Effect

-- A machine that holds objects, each under a key. A call may raise, and one that returns
-- may yield a key.
variable {State Event Object Key : Type*} (step : State → Event → State) (held : State → Object → Prop)
  (raises : State → Event → Prop) (key : Object → Key) (yields : State → Event → Option Key)

-- A call that raises leaves what is held as it was.
def Atomic (s : State) (e : Event) : Prop := raises s e → ∀ object, held (step s e) object ↔ held s object

-- Every call is atomic, and the key of whatever is held was yielded before.
def AllOrNothing (s : State) (events : List Event) : Prop :=
  EachStep step (Atomic step held raises) s events ∧
    ∀ before, before <+: events → ∀ object, held (runFrom step s before) object →
      key object ∈ collect step yields s before

variable {step held raises key yields}

theorem EachStep.congr {Q R : State → Event → Prop} (h : ∀ s e, Q s e ↔ R s e) (s : State) (events : List Event) :
    EachStep step Q s events ↔ EachStep step R s events := by
  induction events generalizing s with
  | nil => exact Iff.rfl
  | cons e events ih => exact and_congr (h s e) (ih (step s e))

-- What an atomic run holds in the end was there at the start, or some call yielded its key.
theorem held_yielded
    (hadds : ∀ s e object, ¬ raises s e → held (step s e) object → held s object ∨ yields s e = some (key object))
    (s : State) (events : List Event) (hatomic : EachStep step (Atomic step held raises) s events) (object : Object)
    (hheld : held (runFrom step s events) object) : held s object ∨ key object ∈ collect step yields s events := by
  induction events generalizing s with
  | nil => exact .inl hheld
  | cons e events ih =>
      rcases ih (step s e) hatomic.2 hheld with hnext | hlater
      · by_cases hraises : raises s e
        · exact .inl ((hatomic.1 hraises object).mp hnext)
        · rcases hadds s e object hraises hnext with hbefore | hyielded
          · exact .inl hbefore
          · refine .inr (List.mem_append_left _ ?_)
            rw [hyielded]
            exact List.mem_singleton_self (key object)
      · exact .inr (List.mem_append_right _ hlater)

-- From a machine that holds nothing, the atomic calls are all that matters.
theorem allOrNothing_iff
    (hadds : ∀ s e object, ¬ raises s e → held (step s e) object → held s object ∨ yields s e = some (key object))
    (s : State) (hempty : ∀ object, ¬ held s object) (events : List Event) :
    AllOrNothing step held raises key yields s events ↔ EachStep step (Atomic step held raises) s events := by
  refine ⟨fun h => h.1, fun h => ⟨h, ?_⟩⟩
  intro before hbefore object hobject
  obtain ⟨later, rfl⟩ := hbefore
  have hfirst := ((eachStep_append _ s before later).mp h).1
  exact (held_yielded hadds s before hfirst object hobject).resolve_left (hempty object)

end V91Core.Effect
