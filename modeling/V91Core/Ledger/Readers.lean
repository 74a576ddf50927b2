import V91Core.Effect.Eval
import V91Core.Json.Loads
import V91Core.Ledger.Commit
import V91Core.Python.Format
import V91Core.Python.Numeric

namespace V91Core.Ledger

open V91Core.Python V91Core.Effect

-- `value.get(key, default)`.
def dictGet (value : Json) (key : PyStr) (default : Json) : Except PyExc Json :=
  match value with
  | .obj fields => .ok ((Json.lookup key fields).getD default)
  | _ => .error .attributeError

-- `for line in fh` on a file that is opened for it.
def forLines (step : σ → PyStr → Except PyExc σ) (init : σ) : Option Bytes → Except PyExc σ
  | none => .error .fileNotFound
  | some content => do
      let stream := readLines content
      let s ← stream.lines.foldlM step init
      if stream.error then .error .unicodeDecode else .ok s

theorem forLines_some (step : σ → PyStr → Except PyExc σ) (content : Bytes) (herror : (readLines content).error = false)
    (init : σ) : forLines step init (some content) = (readLines content).lines.foldlM step init := by
  have hend : ∀ x : Except PyExc σ,
      (x >>= fun s => if (readLines content).error then .error .unicodeDecode else .ok s) = x := by
    intro x
    rw [herror]
    cases x with
    | error e => rfl
    | ok s => rfl
  exact hend _

-- `m / n`, which is exact up to the last rounding for counts below 2 ** 53.
def quotient (m n : Nat) : Float := decimalToFloat false m 0 / decimalToFloat false n 0

section Summarize

variable (rt : Runtime)

structure Tally where
  counts : List (PyStr × Nat)
  total : Nat
  vetoCount : Nat
  executedTrue : Nat

-- `counts[key] += 1`.
def increment (key : PyStr) : List (PyStr × Nat) → List (PyStr × Nat)
  | [] => [(key, 1)]
  | (k, n) :: counts => if k = key then (k, n + 1) :: counts else (k, n) :: increment key counts

def Tally.count (s : Tally) (decision : PyStr) (executed : Json) : Tally where
  counts := increment decision s.counts
  total := s.total + 1
  vetoCount := if decision = py "REJECTED_HUMAN_IMPACT" then s.vetoCount + 1 else s.vetoCount
  executedTrue := if executed = .bool true then s.executedTrue + 1 else s.executedTrue

def tallyLine (s : Tally) (line : PyStr) : Except PyExc Tally :=
  if strip line = [] then .ok s
  else do
    let record ← loadsText rt line
    let payload ← dictGet record (py "payload") (.obj [])
    let decision ← dictGet payload (py "decision") (.str (py "UNKNOWN_DECISION"))
    let executed ← dictGet payload (py "executed") .null
    .ok (s.count (Json.toStr rt.printable decision) executed)

structure Summary where
  chain : Report
  totalEntries : Nat
  decisionCounts : List (PyStr × Nat)
  decisionPercent : List (PyStr × Float)
  humanImpactVetoCount : Nat
  executedTrueCount : Nat

def percent (count total : Nat) : Float := if total = 0 then 0.0 else roundFloat 2 (quotient count total * 100.0)

def summarize (file : Option Bytes) : Except PyExc Summary := do
  let chain ← verifyChain rt file
  if !chain.chainValid then .ok ⟨chain, chain.recordsChecked, [], [], 0, 0⟩
  else do
    let t ← forLines (tallyLine rt) ⟨[], 0, 0, 0⟩ file
    .ok ⟨chain, t.total, Json.sortKeys t.counts, Json.sortKeys (t.counts.map fun c => (c.1, percent c.2 t.total)),
      t.vetoCount, t.executedTrue⟩

end Summarize

section VerifiedSummary

variable (rt : Runtime)

structure Totals where
  total : Nat
  valid : Nat
  co2 : Float

-- `x += value`.
def addValue (x : Float) : Json → Except PyExc Float
  | .float y => .ok (x + y)
  | .int n => (PyNum.int n).toFloat.map (x + ·)
  | .bool b => .ok (x + if b then 1.0 else 0.0)
  | _ => .error .typeError

def Totals.impact (s : Totals) (payload : Json) : Except PyExc Totals := do
  let status ← subscript payload (py "status")
  if status = .str (py "VALID") then do
    let saved ← dictGet payload (py "co2_saved_kg_per_sample") (.float 0.0)
    let co2 ← addValue s.co2 saved
    .ok ⟨s.total + 1, s.valid + 1, co2⟩
  else .ok { s with total := s.total + 1 }

def totalLine (s : Totals) (line : PyStr) : Except PyExc Totals := do
  let record ← loadsText rt line
  let payload ← subscript record (py "payload")
  let type ← dictGet payload (py "type") .null
  if type = .str (py "impact") then s.impact payload else .ok s

structure VerifiedSummary where
  impactsTotal : Nat
  impactsValid : Nat
  verificationRate : Option Float
  verifiedCo2Saved : Float

def verifiedSummary (file : Option Bytes) : Except PyExc VerifiedSummary := do
  let t ← forLines (totalLine rt) ⟨0, 0, 0.0⟩ file
  .ok ⟨t.total, t.valid, if t.total = 0 then none else some (roundFloat 4 (quotient t.valid t.total)),
    roundFloat 6 t.co2⟩

end VerifiedSummary

section Payloads

def field? (key : PyStr) : Json → Option Json
  | .obj fields => Json.lookup key fields
  | _ => none

def isImpact (payload : Json) : Bool := field? (py "type") payload = some (.str (py "impact"))

def isValid (payload : Json) : Bool := field? (py "status") payload = some (.str (py "VALID"))

-- An impact has a status, and a valid one a number that can be added up.
structure Countable (payload : Json) : Prop where
  status : (field? (py "status") payload).isSome = true
  saved : isValid payload = true →
    ∃ sum, addValue 0.0 ((field? (py "co2_saved_kg_per_sample") payload).getD (.float 0.0)) = .ok sum

theorem addValue_isOk_iff (x y : Float) (value : Json) :
    (∃ sum, addValue x value = .ok sum) ↔ ∃ sum, addValue y value = .ok sum := by
  cases value with
  | int n =>
      simp only [addValue]
      cases (PyNum.int n).toFloat with
      | error e => exact iff_of_false nofun nofun
      | ok z => exact iff_of_true ⟨_, rfl⟩ ⟨_, rfl⟩
  | float z => exact iff_of_true ⟨_, rfl⟩ ⟨_, rfl⟩
  | bool b => exact iff_of_true ⟨_, rfl⟩ ⟨_, rfl⟩
  | _ => exact iff_of_false nofun nofun

-- What the summary does with an impact, in cases.
theorem impact_cases (s : Totals) (fields : List (PyStr × Json)) :
    (¬ Countable (.obj fields) ∧ ∃ e, s.impact (.obj fields) = .error e) ∨
      Countable (.obj fields) ∧ ∃ t, s.impact (.obj fields) = .ok t ∧ t.total = s.total + 1 ∧
        t.valid = s.valid + if isValid (.obj fields) then 1 else 0 := by
  cases hstatus : Json.lookup (py "status") fields with
  | none =>
      refine .inl ⟨fun h => ?_, .keyError, by rw [Totals.impact, subscript, hstatus]; rfl⟩
      have hsome := h.status
      rw [field?, hstatus] at hsome
      cases hsome
  | some status =>
      have hsubscript : subscript (.obj fields) (py "status") = .ok status := by rw [subscript, hstatus]; rfl
      have hsome : (field? (py "status") (.obj fields)).isSome = true := by rw [field?, hstatus]; rfl
      by_cases hvalid : status = .str (py "VALID")
      · have htrue : isValid (.obj fields) = true := by rw [isValid, field?, hstatus, hvalid, decide_eq_true_eq]
        have himpact : s.impact (.obj fields) =
            (addValue s.co2 ((field? (py "co2_saved_kg_per_sample") (.obj fields)).getD (.float 0.0)) >>= fun co2 =>
              .ok ⟨s.total + 1, s.valid + 1, co2⟩) := by
          rw [Totals.impact, hsubscript]
          exact if_pos hvalid
        rw [himpact, htrue]
        cases hadd : addValue s.co2 ((field? (py "co2_saved_kg_per_sample") (.obj fields)).getD (.float 0.0)) with
        | error e =>
            refine .inl ⟨fun h => ?_, e, rfl⟩
            obtain ⟨sum, hsum⟩ := (addValue_isOk_iff 0.0 s.co2 _).mp (h.saved htrue)
            rw [hadd] at hsum
            cases hsum
        | ok co2 => exact .inr ⟨⟨hsome, fun _ => (addValue_isOk_iff s.co2 0.0 _).mp ⟨co2, hadd⟩⟩, _, rfl, rfl, rfl⟩
      · have hfalse : isValid (.obj fields) = false := by
          rw [isValid, field?, hstatus, decide_eq_false_iff_not]
          exact fun h => hvalid (Option.some.inj h)
        have himpact : s.impact (.obj fields) = .ok { s with total := s.total + 1 } := by
          rw [Totals.impact, hsubscript]
          exact if_neg hvalid
        rw [himpact, hfalse]
        refine .inr ⟨⟨hsome, fun htrue => ?_⟩, _, rfl, rfl, rfl⟩
        rw [hfalse] at htrue
        cases htrue

end Payloads

section Lines

variable (rt : Runtime)

theorem tallyLine_stored (s : Tally) (line : PyStr) (r : Record) (fields : List (PyStr × Json))
    (hstored : storedRecord rt line = some r) (hpayload : r.payload = .obj fields) (hline : strip line ≠ []) :
    ∃ decision executed, tallyLine rt s line = .ok (s.count decision executed) := by
  obtain ⟨record, hload, -, -, -, hlookup, -⟩ := (storedRecord_eq_some rt line r).mp hstored
  rw [hpayload] at hlookup
  refine ⟨Json.toStr rt.printable ((Json.lookup (py "decision") fields).getD (.str (py "UNKNOWN_DECISION"))),
    (Json.lookup (py "executed") fields).getD .null, ?_⟩
  rw [tallyLine, if_neg hline, hload]
  change (dictGet (.obj record) (py "payload") (.obj []) >>= fun payload => _) = _
  rw [dictGet, hlookup]
  rfl

theorem totalLine_stored (s : Totals) (line : PyStr) (r : Record) (fields : List (PyStr × Json))
    (hstored : storedRecord rt line = some r) (hpayload : r.payload = .obj fields) :
    totalLine rt s line = if isImpact r.payload then s.impact r.payload else .ok s := by
  obtain ⟨record, hload, -, -, -, hlookup, -⟩ := (storedRecord_eq_some rt line r).mp hstored
  have hsubscript : subscript (.obj record) (py "payload") = .ok r.payload := by rw [subscript, hlookup]; rfl
  rw [totalLine, hload]
  change (subscript (.obj record) (py "payload") >>= fun payload => _) = _
  rw [hsubscript, hpayload]
  have himpact : (Json.lookup (py "type") fields).getD .null = .str (py "impact") ↔ isImpact (.obj fields) = true := by
    rw [isImpact, field?, decide_eq_true_eq]
    cases Json.lookup (py "type") fields with
    | none => exact iff_of_false (by simp) (by simp)
    | some value => exact ⟨congrArg some, Option.some.inj⟩
  change (if (Json.lookup (py "type") fields).getD .null = .str (py "impact") then _ else _) = _
  simp only [himpact]

theorem totalLine_blank (s : Totals) (line : PyStr) (h : strip line = []) : ∃ e, totalLine rt s line = .error e := by
  cases hload : loadsText rt line with
  | error e => exact ⟨e, by rw [totalLine, hload]; rfl⟩
  | ok j => exact absurd ((loadsText_eq_ok rt line j).mp hload) (Json.loads_blank rt.nesting line h j)

theorem increment_sum (key : PyStr) (counts : List (PyStr × Nat)) :
    ((increment key counts).map Prod.snd).sum = (counts.map Prod.snd).sum + 1 := by
  induction counts with
  | nil => rfl
  | cons c counts ih =>
      rw [increment]
      split
      · rw [List.map_cons, List.map_cons, List.sum_cons, List.sum_cons]
        omega
      · rw [List.map_cons, List.map_cons, List.sum_cons, List.sum_cons, ih]
        omega

def IsObject (payload : Json) : Prop := ∃ fields, payload = .obj fields

-- Every record of a good chain is counted once.
theorem tally_goodLines (n : Nat) (prev : Json) (lines : List PyStr) (rs : List Record)
    (hgood : GoodLines rt n prev lines rs) (hobjects : ∀ r ∈ rs, IsObject r.payload) (s : Tally) :
    ∃ t, lines.foldlM (tallyLine rt) s = .ok t ∧ t.total = s.total + rs.length ∧
      (t.counts.map Prod.snd).sum = (s.counts.map Prod.snd).sum + rs.length := by
  induction hgood generalizing s with
  | nil n prev => exact ⟨s, rfl, rfl, rfl⟩
  | blank n prev line lines rs hblank hrest ih =>
      obtain ⟨t, ht, htotal, hsum⟩ := ih hobjects s
      refine ⟨t, ?_, htotal, hsum⟩
      rw [List.foldlM_cons, tallyLine, if_pos hblank]
      exact ht
  | record n prev line lines r rs hline hrecord hrest ih =>
      obtain ⟨⟨fields, hfields⟩, hothers⟩ := List.forall_mem_cons.mp hobjects
      obtain ⟨decision, executed, hcount⟩ := tallyLine_stored rt s line r fields hrecord.stored hfields hline
      obtain ⟨t, ht, htotal, hsum⟩ := ih hothers (s.count decision executed)
      refine ⟨t, ?_, ?_, ?_⟩
      · rw [List.foldlM_cons, hcount]
        exact ht
      · have hcounted : (s.count decision executed).total = s.total + 1 := rfl
        rw [htotal, hcounted, List.length_cons]
        omega
      · have hcounted : ((s.count decision executed).counts.map Prod.snd).sum = (s.counts.map Prod.snd).sum + 1 :=
          increment_sum decision s.counts
        rw [hsum, hcounted, List.length_cons]
        omega

-- The totals can be computed when no line is blank and all impacts are countable, and
-- then they count the impacts.
theorem totals_goodLines (n : Nat) (prev : Json) (lines : List PyStr) (rs : List Record)
    (hgood : GoodLines rt n prev lines rs) (hobjects : ∀ r ∈ rs, IsObject r.payload) (s : Totals) :
    ((∃ t, lines.foldlM (totalLine rt) s = .ok t) ↔
      (∀ line ∈ lines, strip line ≠ []) ∧ ∀ r ∈ rs, isImpact r.payload = true → Countable r.payload) ∧
    ∀ t, lines.foldlM (totalLine rt) s = .ok t →
      t.total = s.total + rs.countP (fun r => isImpact r.payload) ∧
      t.valid = s.valid + rs.countP (fun r => isImpact r.payload && isValid r.payload) := by
  induction hgood generalizing s with
  | nil n prev =>
      refine ⟨iff_of_true ⟨s, rfl⟩ ⟨nofun, nofun⟩, fun t ht => ?_⟩
      obtain rfl := Except.ok.inj ht
      exact ⟨rfl, rfl⟩
  | blank n prev line lines rs hblank hrest ih =>
      obtain ⟨e, he⟩ := totalLine_blank rt s line hblank
      have herror : (line :: lines).foldlM (totalLine rt) s = .error e := by
        rw [List.foldlM_cons, he]
        rfl
      rw [herror]
      refine ⟨iff_of_false nofun fun h => ?_, nofun⟩
      exact h.1 line List.mem_cons_self hblank
  | record n prev line lines r rs hline hrecord hrest ih =>
      obtain ⟨⟨fields, hfields⟩, hothers⟩ := List.forall_mem_cons.mp hobjects
      have hfirst := totalLine_stored rt s line r fields hrecord.stored hfields
      rw [List.forall_mem_cons, List.forall_mem_cons, List.foldlM_cons, hfirst, List.countP_cons, List.countP_cons]
      cases himpact : isImpact r.payload with
      | false =>
          obtain ⟨hiff, hcounts⟩ := ih hothers s
          refine ⟨?_, fun t ht => ?_⟩
          · simp only [Bool.false_eq_true, if_false, ok_bind, false_implies, true_and, hline, ne_eq, not_false_eq_true]
            exact hiff
          · obtain ⟨htotal, hvalid⟩ := hcounts t ht
            exact ⟨htotal, hvalid⟩
      | true =>
          rw [if_pos rfl, hfields]
          rcases impact_cases s fields with ⟨hnot, e, he⟩ | ⟨hcountable, t', ht', htotal', hvalid'⟩
          · rw [he]
            exact ⟨iff_of_false nofun fun h => hnot (h.2.1 rfl), nofun⟩
          · obtain ⟨hiff, hcounts⟩ := ih hothers t'
            rw [ht']
            refine ⟨?_, fun t ht => ?_⟩
            · simp only [ok_bind, hcountable, implies_true, true_and, hline, ne_eq, not_false_eq_true]
              exact hiff
            · obtain ⟨htotal, hvalid⟩ := hcounts t ht
              rw [htotal, hvalid, htotal', hvalid']
              simp only [Bool.true_and, if_true]
              omega

end Lines

section Agreement

variable (rt : Runtime)

-- Both readers return, and count the records that the verifier has counted.
structure Agrees (file : Option Bytes) (n : Nat) : Prop where
  summary : ∃ s, summarize rt file = .ok s ∧ s.totalEntries = n ∧ (s.decisionCounts.map Prod.snd).sum = n
  totals : ∃ v, verifiedSummary rt file = .ok v ∧
    v.impactsTotal = (records rt file).countP (fun r => isImpact r.payload) ∧
    v.impactsValid = (records rt file).countP (fun r => isImpact r.payload && isValid r.payload)

-- The file exists and has no blank line, and its impacts can be added up.
def Readable (file : Option Bytes) : Prop :=
  ∃ content, file = some content ∧ (∀ line ∈ (readLines content).lines, strip line ≠ []) ∧
    ∀ r ∈ records rt file, isImpact r.payload = true → Countable r.payload

def sampleImpact : Json :=
  .obj [(py "co2_saved_kg_per_sample", .int 8), (py "status", .str (py "VALID")), (py "type", .str (py "impact"))]

def impactFile : Option Bytes :=
  (HashChainLedger.append sampleRuntime ⟨0, .str genesis⟩ none sampleImpact [cp 't']).file

end Agreement

end V91Core.Ledger
