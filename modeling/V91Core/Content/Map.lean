import Mathlib.Data.Finset.Card
import Mathlib.Data.List.AList

namespace V91Core.Content

variable {α κ : Type*} [DecidableEq κ] {address : α → κ}
  {m : AList fun _ : κ => α} {held : Finset α}

variable (address) in
-- The map holds exactly these contents, each one under its own address.
def Holds (m : AList fun _ : κ => α) (held : Finset α) : Prop :=
  ∀ k a, m.lookup k = some a ↔ a ∈ held ∧ address a = k

theorem holds_empty : Holds address ∅ ∅ := by
  intro k a
  simp

theorem Holds.lookup (h : Holds address m held) (a : α) (ha : a ∈ held) : m.lookup (address a) = some a :=
  (h (address a) a).mpr ⟨ha, rfl⟩

-- No other content has the address of a new one, so nothing is lost.
theorem Holds.insert [DecidableEq α] (h : Holds address m held) (a : α)
    (hinj : Set.InjOn address (Insert.insert a held : Finset α)) :
    Holds address (m.insert (address a) a) (Insert.insert a held) := by
  intro k b
  by_cases hk : k = address a
  · subst hk
    rw [AList.lookup_insert, Option.some.injEq]
    constructor
    · rintro rfl
      exact ⟨Finset.mem_insert_self a held, rfl⟩
    · rintro ⟨hb, haddress⟩
      exact (hinj hb (Finset.mem_insert_self a held) haddress).symm
  · rw [AList.lookup_insert_ne hk, h k b, Finset.mem_insert]
    constructor
    · exact fun ⟨hb, haddress⟩ => ⟨.inr hb, haddress⟩
    · rintro ⟨rfl | hb, haddress⟩
      · exact absurd haddress.symm hk
      · exact ⟨hb, haddress⟩

-- The map has one key for each content.
theorem Holds.card (h : Holds address m held) (hinj : Set.InjOn address held) :
    m.keys.length = held.card := by
  have hkeys : m.keys.toFinset = held.image address := by
    ext k
    rw [List.mem_toFinset, ← AList.mem_keys, ← AList.lookup_isSome, Option.isSome_iff_exists, Finset.mem_image]
    exact exists_congr fun a => h k a
  rw [← List.toFinset_card_of_nodup m.keys_nodup, hkeys, Finset.card_image_of_injOn hinj]

end V91Core.Content
