import V91Core.Guardrail.Core

namespace V91Core.Guardrail

open V91Core.Python

variable (tables : CharTables)

def Status.severity : Status → Nat
  | .allowLocalReview => 0
  | .reviewRequired => 1
  | .block => 2

-- `p + " " + t + " " + s`.
def padded (text before after : PyStr) : PyStr := before ++ (cp ' ' :: (text ++ (cp ' ' :: after)))

section Found

theorem mem_found (patterns : List (PyStr × Pattern)) (text name : PyStr) :
    name ∈ found tables patterns text ↔ ∃ p ∈ patterns, p.1 = name ∧ p.2.search tables text = true := by
  rw [found, (List.perm_insertionSort _ _).mem_iff, List.mem_map]
  constructor
  · rintro ⟨p, hp, rfl⟩
    obtain ⟨hmem, hsearch⟩ := List.mem_filter.mp hp
    exact ⟨p, hmem, rfl, hsearch⟩
  · rintro ⟨p, hmem, rfl, hsearch⟩
    exact ⟨p, List.mem_filter.mpr ⟨hmem, hsearch⟩, rfl⟩

theorem found_padded (hspace : tables.isAlnum (cp ' ') = false) (patterns : List (PyStr × Pattern))
    (text before after name : PyStr) (h : name ∈ found tables patterns text) :
    name ∈ found tables patterns (padded text before after) := by
  obtain ⟨p, hp, hname, hsearch⟩ := (mem_found tables patterns text name).mp h
  have hblank : Pattern.isWord tables (some (cp ' ')) = false := by
    rw [Pattern.isWord, Option.any_some, hspace]
    decide
  have hbefore : Pattern.isWord tables (before ++ [cp ' ']).getLast? = false := by
    rw [List.getLast?_concat]
    exact hblank
  have hpadded := p.2.search_append tables text (before ++ [cp ' ']) (cp ' ' :: after) hbefore hblank hsearch
  rw [List.append_assoc] at hpadded
  exact (mem_found tables patterns _ name).mpr ⟨p, hp, hname, hpadded⟩

theorem found_padded_ne_nil (hspace : tables.isAlnum (cp ' ') = false) (patterns : List (PyStr × Pattern))
    (text before after : PyStr) (h : found tables patterns text ≠ []) :
    found tables patterns (padded text before after) ≠ [] := by
  obtain ⟨name, hname⟩ := List.exists_mem_of_ne_nil _ h
  exact List.ne_nil_of_mem (found_padded tables hspace patterns text before after name hname)

end Found

section Severity

theorem nonBlank?_of_strip_ne_nil (s : PyStr) (h : strip s ≠ []) : (PyData.str s).nonBlank? = some s := by
  rw [PyData.nonBlank?, if_neg h]

theorem strip_padded_ne_nil (text before after : PyStr) (h : strip text ≠ []) :
    strip (padded text before after) ≠ [] := by
  intro hpadded
  rw [strip_eq_nil_iff] at hpadded
  refine h ((strip_eq_nil_iff text).mpr fun c hc => hpadded c ?_)
  simp [padded, hc]

-- The decision on a text that is not blank, in the order of the checks.
theorem severity_evaluate (text : PyStr) (context : PolicyContext) (h : strip text ≠ []) :
    (evaluate tables (.str text) context).status.severity =
      if contextReasons context ≠ [] ∨ found tables highRiskPatterns text ≠ [] then 2
      else if found tables topicPatterns text ≠ [] then 1
      else if context.allowReadOnlyAnalysis then 0 else 2 := by
  rw [evaluate, nonBlank?_of_strip_ne_nil text h]
  dsimp only
  rw [evaluateText]
  by_cases hreasons : contextReasons context ≠ [] ∨ found tables highRiskPatterns text ≠ []
  · have hne : contextReasons context ++ (found tables highRiskPatterns text).map (py "HIGH_RISK_CUE:" ++ ·) ≠ [] := by
      rw [Ne, List.append_eq_nil_iff, List.map_eq_nil_iff, not_and_or]
      exact hreasons
    rw [if_pos hreasons, if_pos hne]
    rfl
  · have hnil : contextReasons context ++ (found tables highRiskPatterns text).map (py "HIGH_RISK_CUE:" ++ ·) = [] := by
      rw [List.append_eq_nil_iff, List.map_eq_nil_iff]
      rwa [not_or, not_not, not_not] at hreasons
    rw [if_neg hreasons, if_neg (not_not.mpr hnil)]
    by_cases htopic : found tables topicPatterns text ≠ []
    · rw [if_pos htopic, if_pos htopic]
      rfl
    · rw [if_neg htopic, if_neg htopic]
      cases context.allowReadOnlyAnalysis with
      | false => rfl
      | true => rfl

theorem topicFlags_evaluate (text : PyStr) (context : PolicyContext) (h : strip text ≠ []) :
    (evaluate tables (.str text) context).topicFlags = found tables topicPatterns text := by
  rw [evaluate, nonBlank?_of_strip_ne_nil text h]
  dsimp only
  rw [evaluateText]
  split
  · rfl
  · split
    · rfl
    · next _ htopic =>
        rw [not_not.mp htopic]
        split
        · rfl
        · rfl

-- The padding brings no topic alone to a text without one that the context blocks for
-- being read at all.
def KeepsBlock (text before after : PyStr) (context : PolicyContext) : Prop :=
  context.allowReadOnlyAnalysis = true ∨ contextReasons context ≠ [] ∨
    found tables topicPatterns text ≠ [] ∨ found tables highRiskPatterns text ≠ [] ∨
    found tables highRiskPatterns (padded text before after) ≠ [] ∨
    found tables topicPatterns (padded text before after) = []

theorem severity_padded_iff (hspace : tables.isAlnum (cp ' ') = false) (text before after : PyStr)
    (context : PolicyContext) (htext : strip text ≠ []) :
    (evaluate tables (.str text) context).status.severity ≤
        (evaluate tables (.str (padded text before after)) context).status.severity ↔
      KeepsBlock tables text before after context := by
  rw [severity_evaluate tables text context htext,
    severity_evaluate tables _ context (strip_padded_ne_nil text before after htext)]
  have htopics := found_padded_ne_nil tables hspace topicPatterns text before after
  have hcues := found_padded_ne_nil tables hspace highRiskPatterns text before after
  unfold KeepsBlock
  by_cases hcontext : contextReasons context ≠ []
  · simp [hcontext]
  by_cases hcue : found tables highRiskPatterns text ≠ []
  · simp [hcue, hcues hcue]
  by_cases hcue' : found tables highRiskPatterns (padded text before after) ≠ []
  · have hle : (if contextReasons context ≠ [] ∨ found tables highRiskPatterns text ≠ [] then 2
        else if found tables topicPatterns text ≠ [] then 1
        else if context.allowReadOnlyAnalysis then 0 else 2) ≤ 2 := by
      split_ifs <;> omega
    simpa [hcue'] using hle
  by_cases htopic : found tables topicPatterns text ≠ []
  · simp [hcontext, hcue, hcue', htopic, htopics htopic]
  by_cases hread : context.allowReadOnlyAnalysis = true
  · simp [hcontext, hcue, htopic, hread]
  by_cases htopic' : found tables topicPatterns (padded text before after) ≠ []
  · simp [hcontext, hcue, hcue', htopic, hread, htopic']
  · have hneutral := not_not.mp htopic'
    simp [hcontext, hcue, hcue', htopic, hread, hneutral]

end Severity

-- What is found in a text stays found, and the decision on it is weakened exactly where
-- the padding makes a topic of a text that may not be read.
theorem padding_keeps_severity_iff (hspace : tables.isAlnum (cp ' ') = false) (text before after : PyStr)
    (context : PolicyContext) (htext : strip text ≠ []) :
    ((evaluate tables (.str text) context).status.severity ≤
        (evaluate tables (.str (padded text before after)) context).status.severity ∧
      (∀ flag ∈ (evaluate tables (.str text) context).topicFlags,
        flag ∈ (evaluate tables (.str (padded text before after)) context).topicFlags) ∧
      ∀ cue ∈ found tables highRiskPatterns text, cue ∈ found tables highRiskPatterns (padded text before after)) ↔
      KeepsBlock tables text before after context := by
  rw [topicFlags_evaluate tables text context htext,
    topicFlags_evaluate tables _ context (strip_padded_ne_nil text before after htext),
    severity_padded_iff tables hspace text before after context htext]
  constructor
  · exact And.left
  · intro hkeeps
    exact ⟨hkeeps, fun flag => found_padded tables hspace topicPatterns text before after flag,
      fun cue => found_padded tables hspace highRiskPatterns text before after cue⟩

theorem padding_keeps_topic :
    (evaluate asciiTables (.str (py "Krieg")) .default).status.severity ≤
      (evaluate asciiTables (.str (padded (py "Krieg") (py "Berichte zum") (py "heute"))) .default).status.severity :=
  ((padding_keeps_severity_iff asciiTables (by decide) (py "Krieg") (py "Berichte zum") (py "heute") .default
    (by decide)).mpr (.inl rfl)).1

-- The context forbids to read any text, and the padding names a topic.
theorem padding_lifts_block :
    (evaluate asciiTables (.str (py "Analysiere"))
        { PolicyContext.default with allowReadOnlyAnalysis := false }).status =
        .block ∧
      (evaluate asciiTables (.str (padded (py "Analysiere") [] (py "Krieg")))
        { PolicyContext.default with allowReadOnlyAnalysis := false }).status = .reviewRequired := by
  decide +kernel

end V91Core.Guardrail
