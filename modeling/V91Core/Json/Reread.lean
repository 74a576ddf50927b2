import V91Core.Json.Surrogates

namespace V91Core.Json

open V91Core.Python

mutual

-- What is read where a value has been escaped: the halves of a character come together, and
-- a name that is there twice keeps its last value.
def reread : Json → Json
  | .str s => .str (joinPairs s)
  | .arr items => .arr (rereadItems items)
  | .obj fields => .obj (dictOf (rereadFields fields))
  | j => j

def rereadItems : List Json → List Json
  | [] => []
  | j :: items => reread j :: rereadItems items

def rereadFields : List (PyStr × Json) → List (PyStr × Json)
  | [] => []
  | (k, v) :: fields => (joinPairs k, reread v) :: rereadFields fields

end

@[simp] theorem rereadItems_eq (items : List Json) : rereadItems items = items.map reread := by
  induction items with
  | nil => rfl
  | cons j items ih => rw [rereadItems, ih, List.map_cons]

@[simp] theorem rereadFields_eq (fields : List (PyStr × Json)) :
    rereadFields fields = fields.map fun f => (joinPairs f.1, reread f.2) := by
  induction fields with
  | nil => rfl
  | cons f fields ih => rw [rereadFields, ih, List.map_cons]

-- Every escaped text is read, whatever its names and characters are.
theorem encode_reread (st : Style) (hascii : st.ensureAscii = true) (hsort : st.sortKeys = false) (limit : Nat)
    (j : Json) (text : PyStr) (h : encode st limit j = .ok text) : ReadsAs (parseValue limit) text (reread j) := by
  have hatom : ∀ (limit : Nat) (j : Json) (text : PyStr), AllChars (Escapable st.ensureAscii) j → Wf j →
      norm j = j → reread j = j → encode st limit j = .ok text → ReadsAs (parseValue limit) text (reread j) := by
    intro limit j text hchars hwf hnorm hreread h
    have hreads := encode_readsAs st limit j hchars hwf text h
    rwa [order_atom st j hnorm, ← hreread] at hreads
  induction j using ind generalizing limit text with
  | null => exact hatom limit .null text trivial trivial rfl rfl h
  | bool b => exact hatom limit (.bool b) text trivial trivial rfl rfl h
  | int n => exact hatom limit (.int n) text trivial trivial rfl rfl h
  | float x => exact hatom limit (.float x) text trivial trivial rfl rfl h
  | str s =>
      obtain rfl := Except.ok.inj h
      rw [hascii]
      exact joinPairs_readsAs limit s
  | arr items ih =>
      cases limit with
      | zero => cases h
      | succ limit =>
          rw [encode, encodeItems_eq] at h
          obtain ⟨texts, htexts, rfl⟩ := map_eq_ok _ _ _ h
          have hall := forall₂_of_sequence (ReadsAs (parseValue limit)) (encode st limit) reread items texts htexts
            fun j hj t ht => ih j hj limit t ht
          rw [reread, rereadItems_eq]
          refine ⟨⟨_, _, rfl, by decide, by decide, by decide, by decide⟩, fun r _ => ?_⟩
          rw [List.cons_append, List.append_assoc]
          exact parseArray_joinWith st (parseValue limit) texts _ hall r
  | obj fields ih =>
      cases limit with
      | zero => cases h
      | succ limit =>
          rw [encode, encodeFields_eq, hsort] at h
          obtain ⟨texts, htexts, rfl⟩ := map_eq_ok _ _ _ h
          simp only [Bool.false_eq_true, if_false, List.map_map] at htexts
          have hall := forall₂_of_sequence (ReadsAs (parseMember (parseValue limit))) _
            (fun f : PyStr × Json => (joinPairs f.1, reread f.2)) fields texts htexts ?_
          · rw [reread, rereadFields_eq]
            refine ⟨⟨_, _, rfl, by decide, by decide, by decide, by decide⟩, fun r _ => ?_⟩
            rw [List.cons_append, List.append_assoc]
            exact parseObject_joinWith_dictOf st (parseValue limit) texts _ hall r
          · intro f hf t ht
            obtain ⟨v, hv, rfl⟩ := map_eq_ok _ _ _ ht
            refine member_readsAs_key st _ f.1 (joinPairs f.1) v _ (fun r => ?_) (ih f hf limit v hv)
            rw [hascii]
            exact scanString_joinPairs f.1 r

end V91Core.Json
