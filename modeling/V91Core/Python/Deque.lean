import Mathlib.Data.List.DropRight

namespace V91Core.Python

-- `collections.deque(maxlen=n)`.
structure Deque (α : Type*) (maxlen : Nat) where
  items : List α
  hlength : items.length ≤ maxlen

namespace Deque

variable {α : Type*} {n : Nat}

def empty : Deque α n := ⟨[], Nat.zero_le n⟩

-- A full deque loses its first element.
def append (q : Deque α n) (x : α) : Deque α n :=
  if h : q.items.length < n then ⟨q.items ++ [x], by rw [List.length_append, List.length_singleton]; omega⟩
  else ⟨(q.items ++ [x]).tail, by
    have hlength := q.hlength
    rw [List.length_tail, List.length_append, List.length_singleton]
    omega⟩

theorem rtake_of_length_le (xs : List α) (h : xs.length ≤ n) : xs.rtake n = xs := by
  rw [List.rtake, Nat.sub_eq_zero_of_le h, List.drop_zero]

theorem items_append (q : Deque α n) (x : α) : (q.append x).items = (q.items ++ [x]).rtake n := by
  have hlength := q.hlength
  unfold append
  split
  · next h => rw [rtake_of_length_le _ (by rw [List.length_append, List.length_singleton]; omega)]
  · next h =>
      have hone : (q.items ++ [x]).length - n = 1 := by
        rw [List.length_append, List.length_singleton]
        omega
      rw [List.rtake, hone, List.drop_one]

theorem rtake_rtake_concat (xs : List α) (x : α) : (xs.rtake n ++ [x]).rtake n = (xs ++ [x]).rtake n := by
  cases n with
  | zero => rw [List.rtake_zero, List.rtake_zero]
  | succ n =>
      have hrtake : (xs.rtake (n + 1)).rtake n = xs.rtake n := by
        rw [List.rtake_eq_reverse_take_reverse, List.rtake_eq_reverse_take_reverse, List.reverse_reverse,
          List.take_take, List.rtake_eq_reverse_take_reverse, Nat.min_eq_left (Nat.le_succ n)]
      rw [List.rtake_concat_succ, List.rtake_concat_succ, hrtake]

-- It holds the last elements of all that it held and was given.
theorem items_append_of_rtake (q : Deque α n) (xs : List α) (x : α) (h : q.items = xs.rtake n) :
    (q.append x).items = (xs ++ [x]).rtake n := by
  rw [items_append, h, rtake_rtake_concat]

end Deque

end V91Core.Python
