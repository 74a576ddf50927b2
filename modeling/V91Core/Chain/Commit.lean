import Mathlib.Data.Set.Function

namespace V91Core.Chain

-- A run of entries from one head to another, where `link` relates a head and the
-- next entry to the head after it.
def Linked {H E : Type} (link : H → E → H → Prop) : H → List E → H → Prop
  | head, [], last => head = last
  | head, entry :: entries, last => ∃ next, link head entry next ∧ Linked link next entries last

section Links

variable {H E : Type} {link link' : H → E → H → Prop}

theorem Linked.mono (hmono : ∀ head entry next, link head entry next → link' head entry next)
    {head last : H} {entries : List E} (h : Linked link head entries last) :
    Linked link' head entries last := by
  induction entries generalizing head with
  | nil => exact h
  | cons entry entries ih =>
      obtain ⟨next, hlink, hrest⟩ := h
      exact ⟨next, hmono head entry next hlink, ih hrest⟩

-- The last head commits to the entries and to the first head: a link that can be
-- read backwards makes the whole run readable backwards.
theorem Linked.commits
    (hback : ∀ head entry head' entry' next, link head entry next → link head' entry' next →
      head = head' ∧ entry = entry')
    {head head' last : H} {entries entries' : List E} (h : Linked link head entries last)
    (h' : Linked link head' entries' last) (hlength : entries.length = entries'.length) :
    head = head' ∧ entries = entries' := by
  induction entries generalizing head head' entries' with
  | nil =>
      obtain rfl := List.length_eq_zero_iff.mp hlength.symm
      exact ⟨h.trans h'.symm, rfl⟩
  | cons entry entries ih =>
      cases entries' with
      | nil => cases hlength
      | cons entry' entries' =>
          obtain ⟨next, hlink, hrest⟩ := h
          obtain ⟨next', hlink', hrest'⟩ := h'
          obtain ⟨rfl, rfl⟩ := ih hrest hrest' (Nat.succ.inj hlength)
          obtain ⟨rfl, rfl⟩ := hback _ _ _ _ _ hlink hlink'
          exact ⟨rfl, rfl⟩

end Links

section Hashes

variable {H E M : Type} (message : H → E → M → Prop) (hash : M → H) (messages : Set M)

-- The next head is the hash of a message that was hashed.
def HashLink (head : H) (entry : E) (next : H) : Prop :=
  ∃ m ∈ messages, message head entry m ∧ hash m = next

theorem hashLink_back (hinj : Set.InjOn hash messages)
    (hmessage : ∀ head head' entry entry' m, message head entry m → message head' entry' m →
      head = head' ∧ entry = entry')
    (head : H) (entry : E) (head' : H) (entry' : E) (next : H)
    (h : HashLink message hash messages head entry next)
    (h' : HashLink message hash messages head' entry' next) : head = head' ∧ entry = entry' := by
  obtain ⟨m, hm, hmsg, rfl⟩ := h
  obtain ⟨m', hm', hmsg', heq⟩ := h'
  obtain rfl := hinj hm' hm heq
  exact hmessage _ _ _ _ _ hmsg hmsg'

end Hashes

end V91Core.Chain
