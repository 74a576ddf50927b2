import Mathlib.Data.List.Infix

namespace V91Core.Content

variable {α : Type*}

-- The separator occurs once, at the end of the text that it follows.
def Delimits (sep text : List α) : Prop :=
  ∀ before after, text ++ sep = before ++ sep ++ after → after = []

-- The separator ends before a tail that does not have its last element.
theorem before_tail (sep : List α) (last : α) (hlast : sep.getLast? = some last) (text tail before after : List α)
    (htail : last ∉ tail) (h : text ++ sep ++ tail = before ++ sep ++ after) :
    ∃ rest, after = rest ++ tail ∧ text ++ sep = before ++ sep ++ rest := by
  rcases List.append_eq_append_iff.mp h with ⟨middle, hmiddle, htail'⟩ | ⟨rest, hrest, hafter⟩
  · -- The separator would end inside the tail.
    cases middle using List.reverseRecOn with
    | nil =>
        rw [List.append_nil] at hmiddle
        exact ⟨[], by rw [htail']; rfl, by rw [List.append_nil, hmiddle]⟩
    | append_singleton middle d =>
        have hd : d = last := by
          have hback := congrArg List.getLast? hmiddle
          rw [List.getLast?_append, List.getLast?_append, hlast] at hback
          simpa using hback.symm
        refine absurd ?_ htail
        rw [htail', ← hd]
        simp
  · exact ⟨rest, hafter, hrest⟩

-- A text that the separator delimits is the only way to split what it begins.
theorem Delimits.split (sep : List α) (last : α) (hlast : sep.getLast? = some last) (text tail before after : List α)
    (hdelimits : Delimits sep text) (htail : last ∉ tail) (h : text ++ sep ++ tail = before ++ sep ++ after) :
    before = text ∧ after = tail := by
  obtain ⟨rest, rfl, hsplit⟩ := before_tail sep last hlast text tail before after htail h
  obtain rfl := hdelimits before rest hsplit
  rw [List.append_nil] at hsplit
  exact ⟨(List.append_cancel_right hsplit).symm, rfl⟩

end V91Core.Content
