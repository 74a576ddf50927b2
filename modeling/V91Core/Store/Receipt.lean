import V91Core.Python.Data

namespace V91Core.Store

open V91Core.Python

-- The keys that a receipt must have.
def requireKeys (entries : List (PyData × PyData)) (missing : PyStr → PyExc) :
    List String → Except PyExc Unit
  | [] => .ok ()
  | key :: keys =>
      match PyData.get? (py key) entries with
      | none => .error (missing (py ("receipt is missing '" ++ key ++ "'")))
      | some _ => requireKeys entries missing keys

-- `receipt[key]` of a key that is there.
def field (entries : List (PyData × PyData)) (key : String) : PyData :=
  (PyData.get? (py key) entries).getD .none

theorem requireKeys_eq_ok (entries : List (PyData × PyData)) (missing : PyStr → PyExc) (keys : List String)
    (u : Unit) :
    requireKeys entries missing keys = .ok u ↔
      ∀ key ∈ keys, (PyData.get? (py key) entries).isSome = true := by
  induction keys with
  | nil => simp [requireKeys]
  | cons key keys ih =>
      rw [requireKeys, List.forall_mem_cons]
      cases hget : PyData.get? (py key) entries with
      | none => simp
      | some value => simp [ih]

theorem isStr_iff (text : PyStr) (value : PyData) : value.isStr text = true ↔ value = .str text := by
  cases value <;> simp [PyData.isStr]

end V91Core.Store
