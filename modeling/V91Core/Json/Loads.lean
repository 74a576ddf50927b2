import V91Core.Json.RoundTrip

namespace V91Core.Json

open V91Core.Python

-- A larger limit leaves more room.
theorem fits_le (nan : Bool) (limit limit' : Nat) (hle : limit ≤ limit') (j : Json) (h : Fits nan limit j) :
    Fits nan limit' j := by
  induction j using ind generalizing limit limit' with
  | arr items ih =>
      refine ⟨by have := h.1; omega, (fitsItems_iff _ _ _).mpr fun j hj => ?_⟩
      exact ih j hj (limit - 1) (limit' - 1) (by omega) ((fitsItems_iff _ _ _).mp h.2 j hj)
  | obj fields ih =>
      refine ⟨by have := h.1; omega, (fitsFields_iff _ _ _).mpr fun f hf => ?_⟩
      exact ih f hf (limit - 1) (limit' - 1) (by omega) ((fitsFields_iff _ _ _).mp h.2 f hf)
  | _ => exact h

-- The text does not depend on the room that is left where the value is written.
theorem encode_fits (st : Style) (limit limit' : Nat) (j : Json) (h : Fits st.allowNan limit j)
    (h' : Fits st.allowNan limit' j) : encode st limit j = encode st limit' j := by
  induction j using ind generalizing limit limit' with
  | arr items ih =>
      obtain ⟨limit, rfl⟩ : ∃ n, limit = n + 1 := ⟨limit - 1, by have := h.1; omega⟩
      obtain ⟨limit', rfl⟩ : ∃ n, limit' = n + 1 := ⟨limit' - 1, by have := h'.1; omega⟩
      have hitems : items.map (encode st limit) = items.map (encode st limit') := List.map_congr_left fun j hj =>
        ih j hj limit limit' ((fitsItems_iff _ _ _).mp h.2 j hj) ((fitsItems_iff _ _ _).mp h'.2 j hj)
      simp only [encode, encodeItems_eq, hitems]
  | obj fields ih =>
      obtain ⟨limit, rfl⟩ : ∃ n, limit = n + 1 := ⟨limit - 1, by have := h.1; omega⟩
      obtain ⟨limit', rfl⟩ : ∃ n, limit' = n + 1 := ⟨limit' - 1, by have := h'.1; omega⟩
      have hfields : (fields.map fun f => (f.1, encode st limit f.2)) =
          fields.map fun f => (f.1, encode st limit' f.2) := List.map_congr_left fun f hf => by
        rw [ih f hf limit limit' ((fitsFields_iff _ _ _).mp h.2 f hf) ((fitsFields_iff _ _ _).mp h'.2 f hf)]
      simp only [encode, encodeFields_eq, hfields]
  | bool b => cases b <;> rfl
  | _ => simp only [encode]

-- What is written where little room is left is written the same where there is more.
theorem encode_le (st : Style) (limit limit' : Nat) (hle : limit ≤ limit') (j : Json) (text : PyStr)
    (h : encode st limit j = .ok text) : encode st limit' j = .ok text := by
  have hfits := (encode_isOk_iff st limit j).mp ⟨text, h⟩
  rw [← encode_fits st limit limit' j hfits (fits_le _ limit limit' hle j hfits), h]

section Depth

mutual

-- How many containers are nested in each other.
def depth : Json → Nat
  | .arr items => depthItems items + 1
  | .obj fields => depthFields fields + 1
  | _ => 0

def depthItems : List Json → Nat
  | [] => 0
  | j :: items => max (depth j) (depthItems items)

def depthFields : List (PyStr × Json) → Nat
  | [] => 0
  | (_, v) :: fields => max (depth v) (depthFields fields)

end

theorem depthItems_le_iff (items : List Json) (n : Nat) : depthItems items ≤ n ↔ ∀ j ∈ items, depth j ≤ n := by
  induction items with
  | nil => simp [depthItems]
  | cons j items ih => simp [depthItems, ih]

theorem depthFields_le_iff (fields : List (PyStr × Json)) (n : Nat) :
    depthFields fields ≤ n ↔ ∀ f ∈ fields, depth f.2 ≤ n := by
  induction fields with
  | nil => simp [depthFields]
  | cons f fields ih => simp [depthFields, ih]

-- What can be written at all can be written where its depth leaves room.
theorem fits_iff_depth (nan : Bool) (limit limit' : Nat) (j : Json) (h : Fits nan limit j) :
    Fits nan limit' j ↔ depth j ≤ limit' := by
  induction j using ind generalizing limit limit' with
  | arr items ih =>
      have hitems := (fitsItems_iff _ _ _).mp h.2
      have hdepth := depthItems_le_iff items (limit' - 1)
      rw [Fits, fitsItems_iff, depth]
      constructor
      · rintro ⟨hpos, hfits⟩
        have := hdepth.mpr fun j hj => (ih j hj _ _ (hitems j hj)).mp (hfits j hj)
        omega
      · intro hle
        refine ⟨by omega, fun j hj => (ih j hj _ _ (hitems j hj)).mpr ?_⟩
        exact hdepth.mp (by omega) j hj
  | obj fields ih =>
      have hfields := (fitsFields_iff _ _ _).mp h.2
      have hdepth := depthFields_le_iff fields (limit' - 1)
      rw [Fits, fitsFields_iff, depth]
      constructor
      · rintro ⟨hpos, hfits⟩
        have := hdepth.mpr fun f hf => (ih f hf _ _ (hfields f hf)).mp (hfits f hf)
        omega
      · intro hle
        refine ⟨by omega, fun f hf => (ih f hf _ _ (hfields f hf)).mpr ?_⟩
        exact hdepth.mp (by omega) f hf
  | _ => exact iff_of_true h (Nat.zero_le _)

theorem depth_lt_obj (fields : List (PyStr × Json)) (f : PyStr × Json) (h : f ∈ fields) :
    depth f.2 < depth (.obj fields) :=
  Nat.lt_succ_of_le ((depthFields_le_iff fields _).mp le_rfl f h)

-- Reading a value back keeps its depth.
theorem depth_norm (j : Json) : depth (norm j) = depth j := by
  have hiff : ∀ n, depth (norm j) ≤ n ↔ depth j ≤ n := by
    induction j using ind with
    | arr items ih =>
        intro n
        cases n with
        | zero => simp [norm, depth]
        | succ n =>
            simp only [norm, depth, normItems_eq, Nat.add_le_add_iff_right, depthItems_le_iff, List.forall_mem_map]
            exact forall₂_congr fun j hj => ih j hj n
    | obj fields ih =>
        intro n
        cases n with
        | zero => simp [norm, depth]
        | succ n =>
            have hmem : ∀ f, f ∈ sortKeys (normFields fields) ↔ f ∈ normFields fields :=
              fun f => (sortKeys_perm _).mem_iff
            simp only [norm, depth, Nat.add_le_add_iff_right, depthFields_le_iff, hmem]
            simp only [normFields_eq, List.forall_mem_map]
            exact forall₂_congr fun f hf => ih f hf n
    | _ => exact fun n => Iff.rfl
  exact le_antisymm ((hiff _).mpr le_rfl) ((hiff _).mp le_rfl)

end Depth

-- The value of a field fits where the whole object does.
theorem fits_lookup (nan : Bool) (limit : Nat) (fields : List (PyStr × Json)) (key : PyStr) (value : Json)
    (hlookup : lookup key fields = some value) (h : Fits nan limit (.obj fields)) : Fits nan limit value := by
  have hvalue := (fitsFields_iff _ _ _).mp h.2 (key, value) (mem_of_lookup key value fields hlookup)
  exact fits_le nan (limit - 1) limit (by omega) value hvalue

-- JSON has no value on a blank line.
theorem loads_blank (limit : Nat) (line : PyStr) (h : strip line = []) (j : Json) : loads limit line ≠ .ok j := by
  rw [strip_eq_nil_iff] at h
  have hhead : ∀ c ∈ line.takeWhile isWs, isWs c = true := fun c hc => List.mem_takeWhile_imp hc
  have hsplit := List.takeWhile_append_dropWhile (p := isWs) (l := line)
  cases hrest : line.dropWhile isWs with
  | nil =>
      obtain ⟨nested, hnested⟩ := parseValue_eq limit
      have hskip : skipWs line = [] := hrest
      unfold loads
      split
      · nofun
      · rw [hskip, hnested]
        nofun
  | cons c rest =>
      have hws : isWs c = false := by
        have hfirst := List.head?_dropWhile_not isWs line
        rw [hrest] at hfirst
        simpa using hfirst
      rw [hrest] at hsplit
      have hspace : c.isSpace = true := h c (by rw [← hsplit]; simp)
      obtain ⟨e, he⟩ := loads_space_error limit _ rest c hhead hspace hws
      rw [← hsplit, he]
      nofun

end V91Core.Json
