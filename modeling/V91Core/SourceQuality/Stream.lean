import V91Core.SourceQuality.Registry

namespace V91Core.SourceQuality

open V91Core.Python

variable (tables : CaseTables) (registry : SourceTrustRegistry)

section Stream

-- What a bucket holds about an item: its verdict, or why it has none.
structure StreamEntry where
  item : PyData
  verdict : Option SourceVerdict
  reason : Option PyStr

structure Buckets where
  acceptedLocal : List StreamEntry
  quarantinedLocal : List StreamEntry
  reviewRequired : List StreamEntry

def Buckets.bucket (buckets : Buckets) : VerdictKind → List StreamEntry
  | .accept => buckets.acceptedLocal
  | .quarantine => buckets.quarantinedLocal
  | .review => buckets.reviewRequired

def Buckets.append (buckets : Buckets) (kind : VerdictKind) (entry : StreamEntry) : Buckets :=
  match kind with
  | .accept => { buckets with acceptedLocal := buckets.acceptedLocal ++ [entry] }
  | .quarantine => { buckets with quarantinedLocal := buckets.quarantinedLocal ++ [entry] }
  | .review => { buckets with reviewRequired := buckets.reviewRequired ++ [entry] }

-- The source and the evidence of an item that is not malformed.
def sourceOf : PyData → Option (PyStr × PyData)
  | .dict fields =>
      match PyData.get? (py "source") fields with
      | some (.str source) => some (source, (PyData.get? (py "evidence") fields).getD .none)
      | _ => none
  | _ => none

def malformedItem : PyStr := py "Malformed item: benoetigt ein 'source'-Feld."

def SourceTrustRegistry.sortItem (validateEvidence : Bool) (buckets : Buckets) (item : PyData) : Buckets :=
  match sourceOf item with
  | none => buckets.append .review ⟨item, none, some malformedItem⟩
  | some (source, evidence) =>
      let verdict := registry.classify tables source evidence validateEvidence
      buckets.append verdict.verdict ⟨item, some verdict, none⟩

def SourceTrustRegistry.filterStream (items : List PyData) (validateEvidence : Bool) : Buckets :=
  items.foldl (registry.sortItem tables validateEvidence) ⟨[], [], []⟩

end Stream

section Partition

-- The bucket that an item belongs to.
def SourceTrustRegistry.bucketOf (validateEvidence : Bool) (item : PyData) : VerdictKind :=
  match sourceOf item with
  | none => .review
  | some (source, evidence) => (registry.classify tables source evidence validateEvidence).verdict

def Buckets.items (buckets : Buckets) (kind : VerdictKind) : List PyData :=
  (buckets.bucket kind).map StreamEntry.item

theorem bucket_append (buckets : Buckets) (kind other : VerdictKind) (entry : StreamEntry) :
    (buckets.append kind entry).bucket other =
      buckets.bucket other ++ if kind = other then [entry] else [] := by
  cases kind <;> cases other <;> simp [Buckets.append, Buckets.bucket]

theorem items_sortItem (validateEvidence : Bool) (buckets : Buckets) (item : PyData) (kind : VerdictKind) :
    (registry.sortItem tables validateEvidence buckets item).items kind =
      buckets.items kind ++ if registry.bucketOf tables validateEvidence item = kind then [item] else [] := by
  unfold SourceTrustRegistry.sortItem SourceTrustRegistry.bucketOf Buckets.items
  cases sourceOf item with
  | none =>
      rw [bucket_append, List.map_append]
      split
      · rfl
      · rfl
  | some judged =>
      rw [bucket_append, List.map_append]
      split
      · rfl
      · rfl

-- The loop adds to each bucket the items that belong there, in their order.
theorem items_foldl (validateEvidence : Bool) (items : List PyData) (buckets : Buckets) (kind : VerdictKind) :
    (items.foldl (registry.sortItem tables validateEvidence) buckets).items kind =
      buckets.items kind ++ items.filter fun item => registry.bucketOf tables validateEvidence item = kind := by
  induction items generalizing buckets with
  | nil => simp
  | cons item items ih =>
      rw [List.foldl_cons, ih, items_sortItem, List.append_assoc]
      by_cases h : registry.bucketOf tables validateEvidence item = kind
      · rw [if_pos h, List.filter_cons_of_pos (by simpa using h), List.singleton_append]
      · rw [if_neg h, List.filter_cons_of_neg (by simpa using h), List.nil_append]

theorem items_filterStream (items : List PyData) (validateEvidence : Bool) (kind : VerdictKind) :
    (registry.filterStream tables items validateEvidence).items kind =
      items.filter fun item => registry.bucketOf tables validateEvidence item = kind := by
  rw [SourceTrustRegistry.filterStream, items_foldl]
  cases kind <;> rfl

end Partition

section Strictness

theorem verdictOf_quarantine_iff (trust : Trust) (validateEvidence supplied valid : Bool) :
    (verdictOf trust validateEvidence supplied valid).1 = .quarantine ↔ trust = .blockedLocal := by
  cases trust <;> cases validateEvidence <;> cases supplied <;> cases valid <;> simp [verdictOf]

theorem verdictOf_accept_iff (trust : Trust) (validateEvidence supplied valid : Bool) :
    (verdictOf trust validateEvidence supplied valid).1 = .accept ↔
      trust = .trusted ∧ (if validateEvidence then valid else supplied) = true := by
  cases trust <;> cases validateEvidence <;> cases supplied <;> cases valid <;> simp [verdictOf]

-- An accepted item has a trusted source and evidence, which strict sorting looks into.
theorem bucketOf_accept_iff (validateEvidence : Bool) (item : PyData) :
    registry.bucketOf tables validateEvidence item = .accept ↔
      ∃ source evidence, sourceOf item = some (source, evidence) ∧ registry.trustOf tables (.str source) = .trusted ∧
        isSupplied evidence = true ∧ (validateEvidence = true → evidenceEntries evidence ≠ [] ∧
          ∀ entry ∈ evidenceEntries evidence, isValidReference tables entry = true) := by
  unfold SourceTrustRegistry.bucketOf
  cases sourceOf item with
  | none => simp
  | some judged =>
      obtain ⟨source, evidence⟩ := judged
      simp only [SourceTrustRegistry.classify, verdictOf_accept_iff, Option.some.injEq, Prod.mk.injEq]
      cases validateEvidence with
      | false => simp
      | true => simp [and_assoc]

theorem bucketOf_quarantine_iff (validateEvidence : Bool) (item : PyData) :
    registry.bucketOf tables validateEvidence item = .quarantine ↔
      ∃ source evidence, sourceOf item = some (source, evidence) ∧
        registry.trustOf tables (.str source) = .blockedLocal := by
  unfold SourceTrustRegistry.bucketOf
  cases sourceOf item with
  | none => simp
  | some judged =>
      obtain ⟨source, evidence⟩ := judged
      simp [SourceTrustRegistry.classify, verdictOf_quarantine_iff]

-- Every item is in one bucket and keeps its place there, what is accepted is trusted and
-- has evidence, and strict sorting accepts no more and quarantines the same.
theorem filterStream_partition (items : List PyData) :
    (∀ validateEvidence kind, (registry.filterStream tables items validateEvidence).items kind =
        items.filter fun item => registry.bucketOf tables validateEvidence item = kind) ∧
      (∀ validateEvidence, ∀ item ∈ (registry.filterStream tables items validateEvidence).items .accept,
        ∃ source evidence, sourceOf item = some (source, evidence) ∧
          registry.trustOf tables (.str source) = .trusted ∧ isSupplied evidence = true ∧
          (validateEvidence = true → evidenceEntries evidence ≠ [] ∧
            ∀ entry ∈ evidenceEntries evidence, isValidReference tables entry = true)) ∧
      ((registry.filterStream tables items true).items .accept).Sublist
        ((registry.filterStream tables items false).items .accept) ∧
      (registry.filterStream tables items true).items .quarantine =
        (registry.filterStream tables items false).items .quarantine := by
  refine ⟨fun _ _ => items_filterStream tables registry items _ _, fun validateEvidence item hitem => ?_, ?_, ?_⟩
  · rw [items_filterStream] at hitem
    exact (bucketOf_accept_iff tables registry validateEvidence item).mp
      (of_decide_eq_true (List.mem_filter.mp hitem).2)
  · rw [items_filterStream, items_filterStream]
    refine List.monotone_filter_right items fun item haccept => ?_
    have hstrict := (bucketOf_accept_iff tables registry true item).mp (of_decide_eq_true haccept)
    obtain ⟨source, evidence, hsource, htrust, hsupplied, -⟩ := hstrict
    have hlegacy := (bucketOf_accept_iff tables registry false item).mpr
      ⟨source, evidence, hsource, htrust, hsupplied, nofun⟩
    exact decide_eq_true hlegacy
  · rw [items_filterStream, items_filterStream]
    refine List.filter_congr fun item _ => ?_
    rw [decide_eq_decide, bucketOf_quarantine_iff, bucketOf_quarantine_iff]

end Strictness

end V91Core.SourceQuality
