import V91Core.Json.Extend

namespace V91Core.Json

open V91Core.Python

section Limits

-- With less room the same is read, or there is no room.
def Below (r r' : Scan α) : Prop := r = r' ∨ r = .error .recursion

theorem Below.andThen {r r' : Scan α} {k k' : α → PyStr → Scan β} (h : Below r r')
    (hk : ∀ a rest, Below (k a rest) (k' a rest)) : Below (andThen r k) (andThen r' k') := by
  rcases h with rfl | rfl
  · cases r with
    | error e => exact .inl rfl
    | ok pair => exact hk pair.1 pair.2
  · exact .inr rfl

variable (item item' : PyStr → Scan α) (hitem : ∀ s, Below (item s) (item' s))

include hitem

theorem parseList_below (close : CodePoint) (bound : Nat) (s : PyStr) :
    Below (parseList item close bound s) (parseList item' close bound s) := by
  induction bound generalizing s with
  | zero => exact .inl rfl
  | succ bound ih =>
      rw [parseList_succ, parseList_succ]
      refine (hitem s).andThen fun a rest => ?_
      unfold afterItem
      cases skipWs rest with
      | nil => exact .inl rfl
      | cons c tail =>
          dsimp only
          split
          · exact .inl rfl
          split
          · exact (ih (skipWs tail)).andThen fun as rest => .inl rfl
          · exact .inl rfl

theorem bracket_below (close : CodePoint) (mk : List α → Json) (s : PyStr) :
    Below (bracket item close mk s) (bracket item' close mk s) := by
  unfold bracket
  split
  · exact .inl rfl
  · exact (parseList_below item item' hitem close _ _).andThen fun as rest => .inl rfl

omit hitem

theorem parseMember_below (value value' : PyStr → Scan Json) (hvalue : ∀ s, Below (value s) (value' s)) (s : PyStr) :
    Below (parseMember value s) (parseMember value' s) := by
  cases s with
  | nil => exact .inl rfl
  | cons c s =>
      rw [parseMember_cons, parseMember_cons]
      split
      · refine Below.andThen (.inl rfl) fun key rest => ?_
        unfold afterKey
        cases skipWs rest with
        | nil => exact .inl rfl
        | cons d tail =>
            dsimp only
            split
            · exact (hvalue (skipWs tail)).andThen fun j rest => .inl rfl
            · exact .inl rfl
      · exact .inl rfl

theorem parseStep_below (nested nested' : Option (PyStr → Scan Json))
    (h : nested = none ∨ ∃ value value', nested = some value ∧ nested' = some value' ∧
      ∀ s, Below (value s) (value' s)) (s : PyStr) : Below (parseStep nested s) (parseStep nested' s) := by
  cases s with
  | nil => exact .inl rfl
  | cons c s =>
      rw [parseStep_cons, parseStep_cons]
      split
      · exact .inl rfl
      split
      · rcases h with rfl | ⟨value, value', rfl, rfl, hvalue⟩
        · exact .inr rfl
        · simp only [parseNested, parseObject_eq]
          exact bracket_below _ _ (parseMember_below value value' hvalue) _ _ s
      split
      · rcases h with rfl | ⟨value, value', rfl, rfl, hvalue⟩
        · exact .inr rfl
        · simp only [parseNested, parseArray_eq]
          exact bracket_below value value' hvalue _ _ s
      · exact .inl rfl

theorem parseValue_below (limit limit' : Nat) (hle : limit ≤ limit') (s : PyStr) :
    Below (parseValue limit s) (parseValue limit' s) := by
  induction limit generalizing limit' s with
  | zero =>
      obtain ⟨nested, hnested⟩ := parseValue_eq limit'
      rw [hnested]
      exact parseStep_below none nested (.inl rfl) s
  | succ limit ih =>
      obtain ⟨limit', rfl⟩ : ∃ l, limit' = l + 1 := Nat.exists_eq_succ_of_ne_zero (by omega)
      exact parseStep_below _ _ (.inr ⟨_, _, rfl, rfl, ih limit' (by omega)⟩) s

-- What is read where little room is left is read the same where there is more.
theorem loads_le (limit limit' : Nat) (hle : limit ≤ limit') (s : PyStr) (j : Json) (h : loads limit s = .ok j) :
    loads limit' s = .ok j := by
  rcases parseValue_below limit limit' hle (skipWs s) with hsame | hdeep
  · rwa [loads, ← hsame]
  · unfold loads at h
    rw [hdeep] at h
    split at h <;> cases h

-- Where the room suffices, how much there is makes no difference.
theorem loads_room (limit limit' : Nat) (s : PyStr) (j : Json) (h : loads limit s = .ok j)
    (hroom : loads limit' s ≠ .error .recursion) : loads limit' s = .ok j := by
  rcases Nat.le_total limit limit' with hle | hle
  · exact loads_le limit limit' hle s j h
  · rcases parseValue_below limit' limit hle (skipWs s) with hsame | hdeep
    · rwa [loads, hsame]
    · unfold loads at h hroom
      split at h
      · cases h
      · next hbom =>
          rw [if_neg hbom, hdeep] at hroom
          exact absurd rfl hroom

end Limits

section Objects

theorem breaks_of_ws (s : PyStr) (h : ∀ c ∈ s, isWs c = true) : Breaks s := by
  intro c hc
  have hws := h c (List.mem_of_mem_head? hc)
  simp only [isWs, Bool.or_eq_true, decide_eq_true_eq] at hws
  rcases hws with ((rfl | rfl) | rfl) | rfl <;> decide

-- The text from the opening to the closing brace of an object that is read completely.
structure IsObject (limit : Nat) (core : PyStr) (fields : List (PyStr × Json)) : Prop where
  braces : ∃ inner, core = cp '{' :: (inner ++ [cp '}'])
  reads : parseValue limit core = .ok (.obj fields, [])

theorem IsObject.append {limit : Nat} {core : PyStr} {fields : List (PyStr × Json)} (h : IsObject limit core fields)
    (more : PyStr) (hmore : Breaks more) : parseValue limit (core ++ more) = .ok (.obj fields, more) := by
  have hsteady := parseValue_steady more hmore limit core
  rw [h.reads] at hsteady
  exact hsteady.2

-- What comes after an object does not matter for its reading.
theorem isObject_of_append (limit : Nat) (inner more : PyStr) (fields : List (PyStr × Json)) (hmore : Breaks more)
    (h : parseValue limit (cp '{' :: (inner ++ [cp '}']) ++ more) = .ok (.obj fields, more)) :
    IsObject limit (cp '{' :: (inner ++ [cp '}'])) fields := by
  refine ⟨⟨inner, rfl⟩, ?_⟩
  have hsteady := parseValue_steady more hmore limit (cp '{' :: (inner ++ [cp '}']))
  cases hcore : parseValue limit (cp '{' :: (inner ++ [cp '}'])) with
  | ok pair =>
      obtain ⟨j, rest⟩ := pair
      rw [hcore, h] at hsteady
      obtain ⟨rfl, hrest⟩ := Prod.mk.inj (Except.ok.inj hsteady.2)
      rw [List.self_eq_append_left.mp hrest]
  | error e =>
      rw [hcore, h] at hsteady
      cases e with
      | recursion => cases hsteady
      | unreadable msg left => exact absurd (hsteady _ _ rfl) (Nat.lt_irrefl _)
      | tooManyDigits => exact absurd (hsteady _ _ rfl) (Nat.lt_irrefl _)
      | stuck => exact absurd (hsteady _ _ rfl) (Nat.lt_irrefl _)

theorem parseAtom_ne_obj (s : PyStr) (fields : List (PyStr × Json)) (rest : PyStr) :
    parseAtom s ≠ .ok (.obj fields, rest) := by
  intro h
  unfold parseAtom at h
  split at h
  · next found hliteral =>
      obtain ⟨l, hl, -, hj⟩ := parseLiteral_eq_some s found.2 found.1 hliteral
      have hobj : found.1 = .obj fields := congrArg Prod.fst (Except.ok.inj h)
      rw [hobj] at hj
      simp only [literals, List.mem_cons, List.not_mem_nil, or_false] at hl
      rcases hl with rfl | rfl | rfl | rfl | rfl | rfl <;> cases hj
  · unfold parseNumber at h
    split at h
    · cases h
    · split at h
      · split at h
        · cases h
        · cases h
      · cases h

theorem parseValue_suffix (limit : Nat) (s : PyStr) (j : Json) (rest : PyStr)
    (h : parseValue limit s = .ok (j, rest)) : rest <:+ s := by
  have hsteady := parseValue_steady [] nofun limit s
  rw [h] at hsteady
  exact hsteady.rest

-- An object is read from its opening to its closing brace.
theorem parseValue_obj (limit : Nat) (s : PyStr) (fields : List (PyStr × Json)) (rest : PyStr)
    (h : parseValue limit s = .ok (.obj fields, rest)) : ∃ inner, s = cp '{' :: (inner ++ [cp '}']) ++ rest := by
  cases s with
  | nil =>
      obtain ⟨e, herror, -⟩ := parseValue_nil limit
      rw [herror] at h
      cases h
  | cons c s =>
      obtain ⟨nested, hnested⟩ : ∃ nested, parseValue limit = parseStep nested ∧
          ∀ value, nested = some value → ∀ s j rest, value s = .ok (j, rest) → rest <:+ s := by
        cases limit with
        | zero => exact ⟨none, rfl, nofun⟩
        | succ limit =>
            refine ⟨some (parseValue limit), rfl, fun value hvalue => ?_⟩
            obtain rfl := Option.some.inj hvalue
            exact parseValue_suffix limit
      rw [hnested.1, parseStep_cons] at h
      split at h
      · obtain ⟨t, mid, -, hend⟩ := (andThen_eq_ok _ _ _ _).mp h
        cases hend
      split at h
      · next hbrace =>
          cases nested with
          | none => cases h
          | some value =>
              simp only [parseNested, parseObject_eq] at h
              obtain ⟨inner, hinner⟩ := bracket_close (parseMember value) (cp '}')
                (parseMember_suffix value (hnested.2 value rfl)) _ s _ rest h
              refine ⟨inner, ?_⟩
              rw [hbrace, ← hinner, List.cons_append, List.append_assoc]
              rfl
      split at h
      · cases nested with
        | none => cases h
        | some value =>
            simp only [parseNested, parseArray_eq, bracket] at h
            split at h
            · cases h
            · obtain ⟨items, mid, -, hend⟩ := (andThen_eq_ok _ _ _ _).mp h
              cases hend
      · exact absurd h (parseAtom_ne_obj _ _ _)

theorem skipWs_brace (pre rest : PyStr) (hpre : ∀ c ∈ pre, isWs c = true) :
    skipWs (pre ++ cp '{' :: rest) = cp '{' :: rest := by
  rw [skipWs, dropWhile_append_all isWs pre _ hpre]
  rfl

theorem head_brace (pre rest : PyStr) (hpre : ∀ c ∈ pre, isWs c = true) :
    (pre ++ cp '{' :: rest).head? ≠ some (chr 0xFEFF) := by
  cases pre with
  | nil => exact fun hbom => absurd (Option.some.inj hbom) (by decide)
  | cons c pre =>
      intro hbom
      have hc := hpre c List.mem_cons_self
      obtain rfl := Option.some.inj hbom
      exact absurd hc (by decide)

-- A text that is loaded as an object is the object with white space around it.
theorem loads_obj (limit : Nat) (text : PyStr) (fields : List (PyStr × Json))
    (h : loads limit text = .ok (.obj fields)) :
    ∃ pre core post, text = pre ++ core ++ post ∧ (∀ c ∈ pre, isWs c = true) ∧ (∀ c ∈ post, isWs c = true) ∧
      IsObject limit core fields := by
  unfold loads at h
  split at h
  · cases h
  split at h
  · cases h
  next j rest hvalue =>
    split at h
    · next hend =>
        obtain rfl := Except.ok.inj h
        have hpost : ∀ c ∈ rest, isWs c = true := List.dropWhile_eq_nil_iff.mp hend
        obtain ⟨inner, hinner⟩ := parseValue_obj limit _ fields rest hvalue
        refine ⟨text.takeWhile isWs, cp '{' :: (inner ++ [cp '}']), rest, ?_,
          fun c hc => List.mem_takeWhile_imp hc, hpost, ?_⟩
        · rw [List.append_assoc, ← hinner, skipWs, List.takeWhile_append_dropWhile]
        · rw [hinner] at hvalue
          exact isObject_of_append limit inner rest fields (breaks_of_ws rest hpost) hvalue
    · cases h

-- An object is loaded when nothing but white space follows it.
theorem IsObject.loads {limit : Nat} {core : PyStr} {fields : List (PyStr × Json)} (h : IsObject limit core fields)
    (pre more : PyStr) (hpre : ∀ c ∈ pre, isWs c = true) (hmore : Breaks more) :
    loads limit (pre ++ core ++ more) = if skipWs more = [] then .ok (.obj fields)
      else .error (.unreadable "Extra data" (skipWs more).length) := by
  have happend := h.append more hmore
  obtain ⟨inner, rfl⟩ := h.braces
  rw [List.append_assoc, List.cons_append] at *
  rw [Json.loads, if_neg (head_brace pre _ hpre), skipWs_brace pre _ hpre]
  simp only [happend]

-- More room does not change what is read.
theorem IsObject.mono {limit limit' : Nat} {core : PyStr} {fields : List (PyStr × Json)}
    (h : IsObject limit core fields) (hle : limit ≤ limit') : IsObject limit' core fields := by
  refine ⟨h.braces, ?_⟩
  rcases parseValue_below limit limit' hle core with heq | hrecursion
  · exact heq.symm.trans h.reads
  · rw [h.reads] at hrecursion
    cases hrecursion

-- With another limit the same object is read, or there is no room for it.
theorem IsObject.other {limit : Nat} {core : PyStr} {fields : List (PyStr × Json)} (h : IsObject limit core fields)
    (limit' : Nat) : IsObject limit' core fields ∨
      ∀ more, Breaks more → parseValue limit' (core ++ more) = .error .recursion := by
  rcases Nat.le_total limit limit' with hle | hle
  · exact .inl (h.mono hle)
  · rcases parseValue_below limit' limit hle core with heq | hrecursion
    · exact .inl ⟨h.braces, heq.trans h.reads⟩
    · refine .inr fun more hmore => ?_
      have hsteady := parseValue_steady more hmore limit' core
      rw [hrecursion] at hsteady
      exact hsteady

end Objects

end V91Core.Json
