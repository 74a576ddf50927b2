import V91Core.Worker.Queue

namespace V91Core.Worker

open V91Core.Python V91Core.Effect V91Core.Audit

variable {ι : Type}

-- Worker `i` has created the file.
def MadeBy (i : ι) (n : Inode) (s : Shared ι) : Prop := ∃ content, s.files n = some ⟨some i, content⟩

structure Shared.Inv (s : Shared ι) : Prop where
  single : ∀ p q d, s.queue p = some d → s.queue q = some d → p = q
  distinct : ∀ t t' n, s.results t = some n → s.results t' = some n → t = t'
  present : ∀ t n, s.results t = some n → ∃ f, s.files n = some f
  owned : ∀ i n, s.handle i = some n → MadeBy i n s
  published : ∀ t ∈ s.returned, ∃ n, s.results t = some n ∧ ∀ i, s.handle i ≠ some n
  claimed : ∀ c ∈ s.claims, (∃ place, s.queue place = some c.file) ∧ ∀ name, s.queue ⟨.pending, name⟩ ≠ some c.file
  once : (s.claims.map Claim.file).Nodup
  named : ∀ u (place : Place), place.dir ≠ .pending → Bears u place.name → s.queue place ≠ none → ¬ s.Unused u

-- What every step keeps. No document is lost, and only a new one appears in
-- `pending`. A result that was returned or that no worker has made stays as it is.
structure Lasts (s s' : Shared ι) : Prop where
  documents : ∀ place d, s.queue place = some d → ∃ place', s'.queue place' = some d
  pending : ∀ name d, s'.queue ⟨.pending, name⟩ = some d →
    s.queue ⟨.pending, name⟩ = some d ∨ ∀ place, s.queue place ≠ some d
  published : ∀ t ∈ s.returned, t ∈ s'.returned ∧ s'.results t = s.results t ∧
    ∀ n, s.results t = some n → s'.files n = s.files n
  outside : ∀ t n content, s.results t = some n → s.files n = some ⟨none, content⟩ →
    s'.results t = some n ∧ s'.files n = s.files n
  claims : ∀ c ∈ s.claims, c ∈ s'.claims
  refused : ∀ i ∈ s.refused, i ∈ s'.refused

-- What the others leave to worker `i`: its open file, its lock, the results it has
-- made and the places whose names bear an identifier that it has drawn. They make
-- results for the files that they have claimed.
structure Keeps (i : ι) (s s' : Shared ι) : Prop where
  handle : s'.handle i = s.handle i
  lock : s.lock = some i → s'.lock = some i
  result : ∀ t n, s.results t = some n → MadeBy i n s →
    s'.results t = some n ∧ s'.files n = s.files n ∧ (t ∈ s'.returned → t ∈ s.returned)
  drawn : ∀ u, s.drawn u = some i → s'.drawn u = some i ∧
    ∀ place : Place, place.dir ≠ .pending → Bears u place.name → s'.queue place = s.queue place
  claims : ∀ c ∈ s'.claims, c.worker = i → c ∈ s.claims
  refused : i ∈ s'.refused → i ∈ s.refused
  appears : ∀ t n, s'.results t = some n →
    s.results t = some n ∨ ∃ c ∈ s'.claims, c.worker ≠ i ∧ taskIdOf c.name = t

theorem Lasts.refl (s : Shared ι) : Lasts s s where
  documents place _ h := ⟨place, h⟩
  pending _ _ h := .inl h
  published _ h := ⟨h, rfl, fun _ _ => rfl⟩
  outside _ _ _ h _ := ⟨h, rfl⟩
  claims _ h := h
  refused _ h := h

theorem Keeps.refl (i : ι) (s : Shared ι) : Keeps i s s where
  handle := rfl
  lock h := h
  result _ _ h _ := ⟨h, rfl, id⟩
  drawn _ h := ⟨h, fun _ _ _ => rfl⟩
  claims _ h _ := h
  refused h := h
  appears _ _ h := .inl h

theorem Lasts.trans {s s' s'' : Shared ι} (h : Lasts s s') (h' : Lasts s' s'') : Lasts s s'' where
  documents place d hd := by
    obtain ⟨place', hd'⟩ := h.documents place d hd
    exact h'.documents place' d hd'
  pending name d hd := by
    rcases h'.pending name d hd with hd' | hnew
    · exact h.pending name d hd'
    · refine .inr fun place hplace => ?_
      obtain ⟨place', hplace'⟩ := h.documents place d hplace
      exact hnew place' hplace'
  published t ht := by
    obtain ⟨ht', hresults, hfiles⟩ := h.published t ht
    obtain ⟨ht'', hresults', hfiles'⟩ := h'.published t ht'
    refine ⟨ht'', hresults'.trans hresults, fun n hn => ?_⟩
    rw [hfiles' n (hresults.trans hn), hfiles n hn]
  outside t n content hn hcontent := by
    obtain ⟨hn', hfiles⟩ := h.outside t n content hn hcontent
    obtain ⟨hn'', hfiles'⟩ := h'.outside t n content hn' (hfiles.trans hcontent)
    exact ⟨hn'', hfiles'.trans hfiles⟩
  claims c hc := h'.claims c (h.claims c hc)
  refused i hi := h'.refused i (h.refused i hi)

theorem Keeps.madeBy {i : ι} {s s' : Shared ι} (h : Keeps i s s') {t : PyStr} {n : Inode}
    (hn : s.results t = some n) (hmade : MadeBy i n s) : MadeBy i n s' := by
  obtain ⟨-, hfiles, -⟩ := h.result t n hn hmade
  exact hmade.imp fun content hcontent => hfiles.trans hcontent

theorem Keeps.trans {i : ι} {s s' s'' : Shared ι} (h : Keeps i s s') (h' : Keeps i s' s'') (hlasts : Lasts s' s'') :
    Keeps i s s'' where
  handle := h'.handle.trans h.handle
  lock hlock := h'.lock (h.lock hlock)
  result t n hn hmade := by
    obtain ⟨hn', hfiles, hreturned⟩ := h.result t n hn hmade
    obtain ⟨hn'', hfiles', hreturned'⟩ := h'.result t n hn' (h.madeBy hn hmade)
    exact ⟨hn'', hfiles'.trans hfiles, fun ht => hreturned (hreturned' ht)⟩
  drawn u hu := by
    obtain ⟨hu', hqueue⟩ := h.drawn u hu
    obtain ⟨hu'', hqueue'⟩ := h'.drawn u hu'
    exact ⟨hu'', fun place hdir hbears => (hqueue' place hdir hbears).trans (hqueue place hdir hbears)⟩
  claims c hc hworker := h.claims c (h'.claims c hc hworker) hworker
  refused hi := h.refused (h'.refused hi)
  appears t n hn := by
    rcases h'.appears t n hn with hn' | hmade
    · refine (h.appears t n hn').imp_right ?_
      rintro ⟨c, hc, hrest⟩
      exact ⟨c, hlasts.claims c hc, hrest⟩
    · exact .inr hmade

theorem suffix_uuid (u v : UuidHex) (name : PyStr) (hu : Bears u name) (hv : Bears v name) : u = v := by
  have hlength : ∀ w : UuidHex, (w.val ++ py ".json").length = 37 := by
    intro w
    rw [List.length_append, w.property]
    rfl
  have hsame : u.val ++ py ".json" = v.val ++ py ".json" :=
    (List.suffix_of_suffix_length_le hu hv (by rw [hlength, hlength])).eq_of_length (by rw [hlength, hlength])
  exact Subtype.ext (List.append_cancel_right hsame)

theorem bears_claimName (cfg : Config) (source : PyStr) (u : UuidHex) : Bears u (claimName cfg source u) := by
  refine ⟨stem source ++ py "." ++ cfg.hostname ++ py "." ++ natText cfg.pid ++ py ".", ?_⟩
  simp only [claimName, List.append_assoc]

theorem not_madeBy_of_ne {i j : ι} (hij : j ≠ i) {n : Inode} {s : Shared ι} (hi : MadeBy i n s) : ¬ MadeBy j n s := by
  rintro ⟨content, hj⟩
  obtain ⟨content', hi⟩ := hi
  rw [hi] at hj
  have hmaker := congrArg ResultFile.maker (Option.some.inj hj)
  exact hij (Option.some.inj hmaker).symm

theorem not_madeBy_of_outside {i : ι} {n : Inode} {content : Bytes} {s : Shared ι}
    (h : s.files n = some ⟨none, content⟩) : ¬ MadeBy i n s := by
  rintro ⟨content', hi⟩
  rw [h] at hi
  cases Option.some.inj hi

-- What a worker may do.
def Guards (i : ι) (s s' : Shared ι) : Prop := Lasts s s' ∧ ∀ j, j ≠ i → Keeps j s s'

section Moves

variable {s : Shared ι} {i : ι} {source target : Place} {d : Inode}

theorem move_back {place : Place} {d' : Inode} (h : (s.move i source target d).queue place = some d') :
    (place = target ∧ d' = d) ∨ place ≠ source ∧ s.queue place = some d' := by
  rw [Shared.queue_move] at h
  split at h
  · next heq => exact .inl ⟨heq, (Option.some.inj h).symm⟩
  · split at h
    · cases h
    · next hne => exact .inr ⟨hne, h⟩

theorem move_kept (hsource : s.queue source = some d) (hfree : s.queue target = none) (place : Place) (d' : Inode)
    (h : s.queue place = some d') : ∃ place', (s.move i source target d).queue place' = some d' := by
  by_cases hplace : place = source
  · rw [hplace, hsource] at h
    exact ⟨target, by rw [Shared.queue_move, if_pos rfl, h]⟩
  · have hne : place ≠ target := by
      rintro rfl
      rw [hfree] at h
      cases h
    exact ⟨place, by rw [Shared.queue_move, if_neg hne, if_neg hplace, h]⟩

theorem move_pending (hdir : target.dir ≠ .pending) {name : PyStr} {d' : Inode}
    (h : (s.move i source target d).queue ⟨.pending, name⟩ = some d') :
    s.queue ⟨.pending, name⟩ = some d' ∧ (⟨.pending, name⟩ : Place) ≠ source := by
  rcases move_back h with ⟨rfl, -⟩ | ⟨hne, hd'⟩
  · exact absurd rfl hdir
  · exact ⟨hd', hne⟩

theorem mem_claims_move {c : Claim ι} (h : c ∈ (s.move i source target d).claims) :
    c ∈ s.claims ∨ source.dir = .pending ∧ c = ⟨i, d, target.name⟩ := by
  simp only [Shared.move] at h
  split at h
  · next hsource =>
      rcases List.mem_cons.mp h with rfl | h
      · exact .inr ⟨hsource, rfl⟩
      · exact .inl h
  · exact .inl h

theorem claims_move (c : Claim ι) (h : c ∈ s.claims) : c ∈ (s.move i source target d).claims := by
  simp only [Shared.move]
  split
  · exact List.mem_cons_of_mem _ h
  · exact h

theorem move_inv (h : s.Inv) (u : UuidHex) (hu : s.drawn u = some i) (hsource : s.queue source = some d)
    (hdir : target.dir ≠ .pending) (hbears : Bears u target.name) (hfree : s.queue target = none) :
    (s.move i source target d).Inv := by
  refine ⟨?_, h.distinct, h.present, h.owned, h.published, ?_, ?_, ?_⟩
  · intro p q d' hp hq
    rcases move_back hp with ⟨hptarget, rfl⟩ | ⟨hpne, hpold⟩
    · rcases move_back hq with ⟨hqtarget, -⟩ | ⟨hqne, hqold⟩
      · rw [hptarget, hqtarget]
      · exact absurd (h.single q source _ hqold hsource) hqne
    · rcases move_back hq with ⟨-, rfl⟩ | ⟨hqne, hqold⟩
      · exact absurd (h.single p source _ hpold hsource) hpne
      · exact h.single p q d' hpold hqold
  · intro c hc
    rcases mem_claims_move hc with hc | ⟨hsourceDir, rfl⟩
    · obtain ⟨⟨place, hplace⟩, hout⟩ := h.claimed c hc
      exact ⟨move_kept hsource hfree place _ hplace, fun name hname => hout name (move_pending hdir hname).1⟩
    · refine ⟨move_kept hsource hfree source d hsource, fun name hname => ?_⟩
      obtain ⟨hd, hne⟩ := move_pending hdir hname
      exact hne (h.single _ source d hd hsource)
  · simp only [Shared.move]
    split
    · next hsourceDir =>
        refine List.nodup_cons.mpr ⟨fun hmem => ?_, h.once⟩
        obtain ⟨c, hc, rfl⟩ := List.mem_map.mp hmem
        obtain ⟨dir, name⟩ := source
        obtain rfl : dir = .pending := hsourceDir
        exact (h.claimed c hc).2 name hsource
    · exact h.once
  · rintro v place hplace hv hsome ⟨hunused, hearlier⟩
    obtain ⟨d', hd'⟩ := Option.ne_none_iff_exists'.mp hsome
    rcases move_back hd' with ⟨rfl, -⟩ | ⟨-, hold⟩
    · obtain rfl := suffix_uuid u v _ hbears hv
      exact absurd (hu.symm.trans hunused) (by simp)
    · exact h.named v place hplace hv (by simp [hold]) ⟨hunused, hearlier⟩

-- A worker moves a file out of `pending` or under a name of its own, to a free place
-- under a name of its own.
theorem move_guards (u : UuidHex) (hu : s.drawn u = some i) (hsource : s.queue source = some d)
    (hown : source.dir = .pending ∨ Bears u source.name) (hdir : target.dir ≠ .pending) (hbears : Bears u target.name)
    (hfree : s.queue target = none) : Guards i s (s.move i source target d) := by
  refine ⟨{ Lasts.refl s with
    documents := move_kept hsource hfree
    pending := fun name d' hd' => .inl (move_pending hdir hd').1
    claims := claims_move }, fun j hj => { Keeps.refl j s with drawn := ?_, claims := ?_, appears := ?_ }⟩
  · intro v hv
    have hne : ∀ name, Bears v name → ¬ Bears u name := by
      intro name hv' hu'
      obtain rfl := suffix_uuid u v name hu' hv'
      rw [hu] at hv
      exact hj (Option.some.inj hv).symm
    refine ⟨hv, fun place hplaceDir hplace => ?_⟩
    have htarget : place ≠ target := by
      rintro rfl
      exact hne _ hplace hbears
    have hplaceSource : place ≠ source := by
      rintro rfl
      exact hown.elim hplaceDir (hne _ hplace)
    rw [Shared.queue_move, if_neg htarget, if_neg hplaceSource]
  · intro c hc hworker
    rcases mem_claims_move hc with hc | ⟨-, rfl⟩
    · exact hc
    · exact absurd hworker.symm hj
  · exact fun t n hn => .inl hn

end Moves

section Submissions

variable {s : Shared ι} {name : PyStr} {d : Inode}

theorem submit_back {place : Place} {d' : Inode} (h : (s.submit name d).queue place = some d') :
    (place = ⟨.pending, name⟩ ∧ d' = d) ∨ s.queue place = some d' := by
  rw [Shared.queue_submit] at h
  split at h
  · next heq => exact .inl ⟨heq, (Option.some.inj h).symm⟩
  · exact .inr h

theorem submit_kept (hfree : s.queue ⟨.pending, name⟩ = none) (place : Place) (d' : Inode)
    (h : s.queue place = some d') : (s.submit name d).queue place = some d' := by
  have hne : place ≠ ⟨.pending, name⟩ := by
    rintro rfl
    rw [hfree] at h
    cases h
  rw [Shared.queue_submit, if_neg hne, h]

theorem submit_inv (h : s.Inv) (hfree : s.queue ⟨.pending, name⟩ = none) (hnew : ∀ place, s.queue place ≠ some d) :
    (s.submit name d).Inv := by
  refine ⟨?_, h.distinct, h.present, h.owned, h.published, ?_, h.once, ?_⟩
  · intro p q d' hp hq
    rcases submit_back hp with ⟨hpname, rfl⟩ | hpold
    · rcases submit_back hq with ⟨hqname, -⟩ | hqold
      · rw [hpname, hqname]
      · exact absurd hqold (hnew q)
    · rcases submit_back hq with ⟨-, rfl⟩ | hqold
      · exact absurd hpold (hnew p)
      · exact h.single p q d' hpold hqold
  · intro c hc
    obtain ⟨⟨place, hplace⟩, hout⟩ := h.claimed c hc
    refine ⟨⟨place, submit_kept hfree place _ hplace⟩, fun name' hname' => ?_⟩
    rcases submit_back hname' with ⟨-, heq⟩ | hname'
    · exact hnew place (heq ▸ hplace)
    · exact hout name' hname'
  · intro v place hplace hv hsome
    obtain ⟨d', hd'⟩ := Option.ne_none_iff_exists'.mp hsome
    rcases submit_back hd' with ⟨rfl, -⟩ | hold
    · exact absurd rfl hplace
    · exact h.named v place hplace hv (by simp [hold])

theorem submit_lasts (hfree : s.queue ⟨.pending, name⟩ = none) (hnew : ∀ place, s.queue place ≠ some d) :
    Lasts s (s.submit name d) where
  documents place d' hd' := ⟨place, submit_kept hfree place d' hd'⟩
  pending name' d' hd' := by
    rcases submit_back hd' with ⟨-, rfl⟩ | hold
    · exact .inr hnew
    · exact .inl hold
  published _ h := ⟨h, rfl, fun _ _ => rfl⟩
  outside _ _ _ h _ := ⟨h, rfl⟩
  claims _ h := h
  refused _ h := h

theorem submit_keeps (j : ι) : Keeps j s (s.submit name d) where
  handle := rfl
  lock h := h
  result _ _ h _ := ⟨h, rfl, id⟩
  drawn u hu := by
    refine ⟨hu, fun place hdir _ => ?_⟩
    have hne : place ≠ ⟨.pending, name⟩ := by
      rintro rfl
      exact hdir rfl
    rw [Shared.queue_submit, if_neg hne]
  claims _ h _ := h
  refused h := h
  appears _ _ h := .inl h

end Submissions

theorem start_inv (layout : Layout) : (layout.shared (ι := ι)).Inv where
  single := layout.single
  distinct := layout.distinct
  present t n hn := by
    obtain ⟨content, hcontent⟩ := Option.isSome_iff_exists.mp (layout.present t n hn)
    exact ⟨⟨none, content⟩, by simp [Layout.shared, hcontent]⟩
  owned _ _ h := by cases h
  published _ h := by cases h
  claimed _ h := by cases h
  once := List.nodup_nil
  named u place hdir hbears hsome hunused :=
    absurd (layout.named u place hdir hbears hsome) (by simpa [Layout.shared] using hunused.2)

section Files

variable (s : Shared ι) (i : ι)

theorem uuid4_step (h : s.Inv) (u : UuidHex) (hunused : s.Unused u) (s' : Shared ι)
    (hs' : s' = { s with drawn := Function.update s.drawn u (some i) }) : s'.Inv ∧ Guards i s s' := by
  subst hs'
  have hdrawn : ∀ v, v ≠ u → Function.update s.drawn u (some i) v = s.drawn v :=
    fun v hv => Function.update_of_ne hv _ _
  refine ⟨{ h with named := ?_ }, { Lasts.refl s with }, fun j hj => { Keeps.refl j s with drawn := ?_ }⟩
  · rintro v place hdir hv hsome ⟨hnone, hearlier⟩
    by_cases hvu : v = u
    · subst hvu
      exact h.named v place hdir hv hsome hunused
    · exact h.named v place hdir hv hsome ⟨(hdrawn v hvu).symm.trans hnone, hearlier⟩
  · intro v hv
    have hne : v ≠ u := by
      rintro rfl
      rw [hunused.1] at hv
      cases hv
    exact ⟨(hdrawn v hne).trans hv, fun _ _ _ => rfl⟩

theorem acquire_step (h : s.Inv) (hlock : s.lock = none) (s' : Shared ι) (hs' : s' = { s with lock := some i }) :
    s'.Inv ∧ Guards i s s' := by
  subst hs'
  refine ⟨{ h with }, { Lasts.refl s with }, fun j hj => { Keeps.refl j s with lock := ?_ }⟩
  intro hj'
  rw [hlock] at hj'
  cases hj'

theorem release_step (h : s.Inv) (hlock : s.lock = some i) (s' : Shared ι) (hs' : s' = { s with lock := none }) :
    s'.Inv ∧ Guards i s s' := by
  subst hs'
  refine ⟨{ h with }, { Lasts.refl s with }, fun j hj => { Keeps.refl j s with lock := ?_ }⟩
  intro hj'
  rw [hlock] at hj'
  exact absurd (Option.some.inj hj').symm hj

theorem refused_step (h : s.Inv) (s' : Shared ι) (hs' : s' = { s with refused := i :: s.refused }) :
    s'.Inv ∧ Guards i s s' := by
  subst hs'
  refine ⟨{ h with }, { Lasts.refl s with refused := fun j hj => List.mem_cons_of_mem i hj },
    fun j hj => { Keeps.refl j s with refused := fun hmem => (List.mem_cons.mp hmem).resolve_left hj }⟩

-- A worker removes a result that it has made and that has not been returned.
theorem unlink_step (h : s.Inv) (taskId : PyStr) (n : Inode) (hn : s.results taskId = some n) (hmade : MadeBy i n s)
    (hreturned : taskId ∉ s.returned) : (s.unlink taskId).Inv ∧ Guards i s (s.unlink taskId) := by
  have hback : ∀ t m, (s.unlink taskId).results t = some m → s.results t = some m := by
    intro t m hm
    rw [Shared.results_unlink] at hm
    split at hm
    · cases hm
    · exact hm
  have hother : ∀ t, t ≠ taskId → (s.unlink taskId).results t = s.results t :=
    fun t ht => by rw [Shared.results_unlink, if_neg ht]
  have hne : ∀ t ∈ s.returned, t ≠ taskId := by
    rintro t ht rfl
    exact hreturned ht
  have hnotMine : ∀ t m, s.results t = some m → ¬ MadeBy i m s → t ≠ taskId := by
    rintro t m hm hnot rfl
    rw [hn] at hm
    exact hnot (Option.some.inj hm ▸ hmade)
  refine ⟨{ h with distinct := ?_, present := ?_, published := ?_ },
    { Lasts.refl s with published := ?_, outside := ?_ },
    fun j hj => { Keeps.refl j s with result := ?_, appears := fun t m hm => .inl (hback t m hm) }⟩
  · exact fun t t' m hm hm' => h.distinct t t' m (hback t m hm) (hback t' m hm')
  · exact fun t m hm => h.present t m (hback t m hm)
  · intro t ht
    obtain ⟨m, hm, hclosed⟩ := h.published t ht
    exact ⟨m, (hother t (hne t ht)).trans hm, hclosed⟩
  · exact fun t ht => ⟨ht, hother t (hne t ht), fun _ _ => rfl⟩
  · exact fun t m content hm hcontent =>
      ⟨(hother t (hnotMine t m hm (not_madeBy_of_outside hcontent))).trans hm, rfl⟩
  · exact fun t m hm hmadeBy =>
      ⟨(hother t (hnotMine t m hm (not_madeBy_of_ne hj.symm hmadeBy))).trans hm, rfl, id⟩

theorem fill_madeBy (h : s.Inv) (content : Bytes → Bytes) (j : ι) (n : Inode) (hmade : MadeBy j n s) :
    MadeBy j n (s.fill i content) := by
  cases hhandle : s.handle i with
  | none =>
      rw [s.fill_none i content hhandle]
      exact hmade
  | some m =>
      obtain ⟨old, hold⟩ := h.owned i m hhandle
      rw [s.fill_some i content m _ hhandle hold]
      by_cases hnm : n = m
      · subst hnm
        obtain ⟨_, hj⟩ := hmade
        rw [hold] at hj
        obtain rfl := Option.some.inj (congrArg ResultFile.maker (Option.some.inj hj))
        exact ⟨content old, Function.update_self _ _ _⟩
      · exact hmade.imp fun c hc => (Function.update_of_ne hnm _ _).trans hc

theorem fill_step (h : s.Inv) (content : Bytes → Bytes) :
    (s.fill i content).Inv ∧ Guards i s (s.fill i content) := by
  have hmade := fill_madeBy s i h content
  cases hhandle : s.handle i with
  | none =>
      rw [s.fill_none i content hhandle]
      exact ⟨h, .refl s, fun j _ => .refl j s⟩
  | some n =>
      obtain ⟨old, hold⟩ := h.owned i n hhandle
      rw [s.fill_some i content n _ hhandle hold] at hmade ⊢
      have hother : ∀ m, m ≠ n → Function.update s.files n (some ⟨some i, content old⟩) m = s.files m :=
        fun m hm => Function.update_of_ne hm _ _
      have hnotMine : ∀ m, ¬ MadeBy i m s → m ≠ n := by
        rintro m hnot rfl
        exact hnot ⟨old, hold⟩
      refine ⟨{ h with present := ?_, owned := fun j m hm => hmade j m (h.owned j m hm) },
        { Lasts.refl s with published := ?_, outside := ?_ }, fun j hj => { Keeps.refl j s with result := ?_ }⟩
      · intro t m hm
        by_cases hmn : m = n
        · exact ⟨_, by rw [hmn]; exact Function.update_self _ _ _⟩
        · obtain ⟨f, hf⟩ := h.present t m hm
          exact ⟨f, (hother m hmn).trans hf⟩
      · intro t ht
        obtain ⟨m, hm, hclosed⟩ := h.published t ht
        refine ⟨ht, rfl, fun m' hm' => hother m' ?_⟩
        rintro rfl
        rw [hm] at hm'
        exact hclosed i (Option.some.inj hm' ▸ hhandle)
      · exact fun t m c hm hc => ⟨hm, hother m (hnotMine m (not_madeBy_of_outside hc))⟩
      · exact fun t m hm hmadeBy => ⟨hm, hother m (hnotMine m (not_madeBy_of_ne hj.symm hmadeBy)), id⟩

variable [DecidableEq ι]

-- A worker makes a result for a file that it has claimed.
theorem create_step (h : s.Inv) (taskId : PyStr) (n : Inode) (hfree : s.results taskId = none)
    (hnew : s.files n = none) (hclaim : ∃ c ∈ s.claims, c.worker = i ∧ taskIdOf c.name = taskId) :
    (s.create i taskId n).Inv ∧ Guards i s (s.create i taskId n) := by
  have hother : ∀ t m, s.results t = some m → t ≠ taskId ∧ m ≠ n := by
    intro t m hm
    constructor
    · rintro rfl
      rw [hfree] at hm
      cases hm
    · rintro rfl
      obtain ⟨f, hf⟩ := h.present t m hm
      rw [hnew] at hf
      cases hf
  have hback : ∀ t m, (s.create i taskId n).results t = some m →
      (t = taskId ∧ m = n) ∨ s.results t = some m := by
    intro t m hm
    rw [Shared.results_create] at hm
    split at hm
    · next heq => exact .inl ⟨heq, (Option.some.inj hm).symm⟩
    · exact .inr hm
  have hresults : ∀ t m, s.results t = some m → (s.create i taskId n).results t = some m := by
    intro t m hm
    rw [Shared.results_create, if_neg (hother t m hm).1, hm]
  have hfiles : ∀ m, m ≠ n → (s.create i taskId n).files m = s.files m :=
    fun m hm => by rw [Shared.files_create, if_neg hm]
  have howned : ∀ j m, s.handle j = some m → m ≠ n := by
    rintro j m hm rfl
    obtain ⟨content, hcontent⟩ := h.owned j m hm
    rw [hnew] at hcontent
    cases hcontent
  refine ⟨{ h with distinct := ?_, present := ?_, owned := ?_, published := ?_ },
    { Lasts.refl s with published := ?_, outside := ?_ },
    fun j hj => { Keeps.refl j s with handle := ?_, result := ?_, appears := ?_ }⟩
  · intro t t' m hm hm'
    rcases hback t m hm with ⟨ht, hmn⟩ | hm
    · rcases hback t' m hm' with ⟨ht', -⟩ | hm'
      · rw [ht, ht']
      · exact absurd hmn (hother t' m hm').2
    · rcases hback t' m hm' with ⟨-, hmn⟩ | hm'
      · exact absurd hmn (hother t m hm).2
      · exact h.distinct t t' m hm hm'
  · intro t m hm
    rcases hback t m hm with ⟨-, rfl⟩ | hm
    · exact ⟨_, by rw [Shared.files_create, if_pos rfl]⟩
    · rw [hfiles m (hother t m hm).2]
      exact h.present t m hm
  · intro j m hm
    rw [Shared.handle_create] at hm
    split at hm
    · next heq =>
        obtain rfl := Option.some.inj hm
        exact ⟨[], by rw [Shared.files_create, if_pos rfl, heq]⟩
    · rw [MadeBy, hfiles m (howned j m hm)]
      exact h.owned j m hm
  · intro t ht
    obtain ⟨m, hm, hclosed⟩ := h.published t ht
    refine ⟨m, hresults t m hm, fun j hj => ?_⟩
    rw [Shared.handle_create] at hj
    split at hj
    · exact (hother t m hm).2 (Option.some.inj hj).symm
    · exact hclosed j hj
  · intro t ht
    obtain ⟨m, hm, -⟩ := h.published t ht
    exact ⟨ht, by rw [hresults t m hm, hm], fun m' hm' => hfiles m' (hother t m' hm').2⟩
  · exact fun t m content hm _ => ⟨hresults t m hm, hfiles m (hother t m hm).2⟩
  · rw [Shared.handle_create, if_neg hj]
  · exact fun t m hm _ => ⟨hresults t m hm, hfiles m (hother t m hm).2, id⟩
  · intro t m hm
    rcases hback t m hm with ⟨rfl, -⟩ | hm
    · obtain ⟨c, hc, hworker, htask⟩ := hclaim
      exact .inr ⟨c, hc, fun heq => hj (heq.symm.trans hworker), htask⟩
    · exact .inl hm

theorem close_step (h : s.Inv) : (s.close i).Inv ∧ Guards i s (s.close i) := by
  have hback : ∀ j n, (s.close i).handle j = some n → s.handle j = some n := by
    intro j n hn
    rw [Shared.handle_close] at hn
    split at hn
    · cases hn
    · exact hn
  refine ⟨{ h with owned := fun j n hn => h.owned j n (hback j n hn), published := ?_ }, { Lasts.refl s with },
    fun j hj => { Keeps.refl j s with handle := by rw [Shared.handle_close, if_neg hj] }⟩
  intro t ht
  obtain ⟨n, hn, hclosed⟩ := h.published t ht
  exact ⟨n, hn, fun j hj => hclosed j (hback j n hj)⟩

-- A worker notes the return of a result that it has made and closed.
theorem returned_step (h : s.Inv) (taskId : PyStr) (n : Inode) (hn : s.results taskId = some n) (hmade : MadeBy i n s)
    (hclosed : s.handle i = none) (s' : Shared ι) (hs' : s' = { s with returned := taskId :: s.returned }) :
    s'.Inv ∧ Guards i s s' := by
  subst hs'
  refine ⟨{ h with published := ?_ },
    { Lasts.refl s with published := fun t ht => ⟨List.mem_cons_of_mem _ ht, rfl, fun _ _ => rfl⟩ },
    fun j hj => { Keeps.refl j s with result := fun t m hm hmadeBy => ⟨hm, rfl, fun ht => ?_⟩ }⟩
  · intro t ht
    rcases List.mem_cons.mp ht with rfl | ht
    · refine ⟨n, hn, fun j hj => ?_⟩
      by_cases hji : j = i
      · subst hji
        rw [hclosed] at hj
        cases hj
      · exact not_madeBy_of_ne hji hmade (h.owned j n hj)
    · exact h.published t ht
  · rcases List.mem_cons.mp ht with rfl | ht
    · rw [hn] at hm
      obtain rfl := Option.some.inj hm
      exact absurd hmadeBy (not_madeBy_of_ne hj hmade)
    · exact ht

end Files

variable [DecidableEq ι]

def contract : Contract (system (ι := ι)) where
  Inv := Shared.Inv
  Rely i s s' := Lasts s s' ∧ Keeps i s s'
  Guar := Guards
  rely_refl i s := ⟨.refl s, .refl i s⟩
  rely_trans _ _ _ _ h h' := ⟨h.1.trans h'.1, h.2.trans h'.2 h'.1⟩
  guar_refl _ s := ⟨.refl s, fun j _ => .refl j s⟩
  rely_of_guar _ j _ _ hij h := ⟨h.1, h.2 j (Ne.symm hij)⟩
  inv_of_env := by
    rintro s _ h ⟨name, d, hfree, hnew⟩
    exact submit_inv h hfree hnew
  rely_of_env := by
    rintro i s _ _ ⟨name, d, hfree, hnew⟩
    exact ⟨submit_lasts hfree hnew, submit_keeps i⟩

-- The contract of the workers with the notes.
abbrev markedContract : Contract (markedSystem (ι := ι)) := contract.marked note

end V91Core.Worker
