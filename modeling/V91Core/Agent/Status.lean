import V91Core.Python.Data

namespace V91Core.Agent

open V91Core.Python

inductive Status where
  | unknown
  | healthy
  | degraded
  | failed
  | isolated
  | recovering
  | verified
deriving DecidableEq

namespace Status

def value : Status → PyStr
  | .unknown => py "UNKNOWN"
  | .healthy => py "HEALTHY"
  | .degraded => py "DEGRADED"
  | .failed => py "FAILED"
  | .isolated => py "ISOLATED"
  | .recovering => py "RECOVERING"
  | .verified => py "VERIFIED"

def all : List Status := [.unknown, .healthy, .degraded, .failed, .isolated, .recovering, .verified]

-- From the best level to the worst one.
def aggregateOrder : List PyStr :=
  [verified.value, healthy.value, recovering.value, degraded.value, unknown.value, isolated.value, failed.value]

-- `Status(value)`.
def ofValue (rt : Runtime) (value : PyData) : Except PyExc Status :=
  match all.find? fun status => value.isStr status.value with
  | some status => .ok status
  | none => do
      let text ← value.repr rt
      .error (.valueError (text ++ py " is not a valid Status"))

-- The worst level that occurs among the texts.
def worst (values : List PyStr) : PyStr :=
  (aggregateOrder.reverse.find? fun level => level ∈ values).getD unknown.value

-- The item that a generator yields, as a text: a `str` as it is, and any other value
-- through `Status`.
def itemText (rt : Runtime) (item : Except Raised PyData) : Except Raised PyStr := do
  match ← item with
  | .str s => return s
  | other =>
      let status ← plain (ofValue rt other)
      return status.value

-- The statuses come from a generator, and computing an item may raise.
def aggregateStatus (rt : Runtime) (statuses : List (Except Raised PyData)) : Except Raised PyStr := do
  let values ← Json.sequence (statuses.map (itemText rt))
  return worst values

end Status

-- HEALTHY or VERIFIED.
def isGood (text : PyStr) : Prop := text = Status.healthy.value ∨ text = Status.verified.value

-- One of the levels below HEALTHY.
def isBad (text : PyStr) : Prop := text ∈ Status.aggregateOrder ∧ ¬ isGood text

instance : DecidablePred isGood := fun _ => inferInstanceAs (Decidable (_ ∨ _))

instance : DecidablePred isBad := fun _ => inferInstanceAs (Decidable (_ ∧ ¬ _))

def badLevels : List PyStr :=
  [Status.failed.value, Status.isolated.value, Status.unknown.value, Status.degraded.value, Status.recovering.value]

def goodLevels : List PyStr := [Status.healthy.value, Status.verified.value]

theorem aggregateOrder_reverse : Status.aggregateOrder.reverse = badLevels ++ goodLevels := rfl

theorem mem_goodLevels (text : PyStr) : text ∈ goodLevels ↔ isGood text := by
  simp [goodLevels, isGood]

theorem mem_badLevels (text : PyStr) : text ∈ badLevels ↔ isBad text := by
  constructor
  · intro h
    have hbad : ∀ level ∈ badLevels, isBad level := by decide +kernel
    exact hbad text h
  · rintro ⟨horder, hgood⟩
    rw [← List.mem_reverse, aggregateOrder_reverse, List.mem_append, mem_goodLevels] at horder
    exact horder.resolve_right hgood

theorem unknown_not_good : ¬ isGood Status.unknown.value := by decide +kernel

-- The aggregate is a good level when some text is one and none is a bad level. A text
-- that is no level at all has no say.
theorem worst_good_iff (values : List PyStr) :
    isGood (Status.worst values) ↔ (∀ text ∈ values, ¬ isBad text) ∧ ∃ text ∈ values, isGood text := by
  rw [Status.worst, aggregateOrder_reverse, List.find?_append]
  cases hbad : badLevels.find? fun level => level ∈ values with
  | some level =>
      have hlevel : isBad level := (mem_badLevels level).mp (List.mem_of_find?_eq_some hbad)
      have hmem : level ∈ values := by simpa using List.find?_some hbad
      exact iff_of_false hlevel.2 (fun h => h.1 level hmem hlevel)
  | none =>
      have hnone : ∀ text ∈ values, ¬ isBad text := by
        intro text htext hbadText
        have habsent := List.find?_eq_none.mp hbad text ((mem_badLevels text).mpr hbadText)
        simp [htext] at habsent
      rw [Option.none_or, and_iff_right hnone]
      cases hgood : goodLevels.find? fun level => level ∈ values with
      | some level =>
          have hlevel : isGood level := (mem_goodLevels level).mp (List.mem_of_find?_eq_some hgood)
          have hmem : level ∈ values := by simpa using List.find?_some hgood
          exact iff_of_true hlevel ⟨level, hmem, hlevel⟩
      | none =>
          refine iff_of_false unknown_not_good ?_
          rintro ⟨text, htext, hgoodText⟩
          have habsent := List.find?_eq_none.mp hgood text ((mem_goodLevels text).mpr hgoodText)
          simp [htext] at habsent

end V91Core.Agent
