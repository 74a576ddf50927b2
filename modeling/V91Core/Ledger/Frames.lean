import V91Core.Json.Loads
import V91Core.Json.Objects
import V91Core.Ledger.Append

namespace V91Core.Ledger

open V91Core.Python

variable (rt : Runtime) (frames : Nat)

section Above

theorem loadsText_above (line : PyStr) (j : Json) (h : loadsText (rt.below frames) line = .ok j) :
    loadsText rt line = .ok j :=
  (loadsText_eq_ok _ _ _).mpr (Json.loads_le _ _ (Nat.sub_le _ _) line j ((loadsText_eq_ok _ _ _).mp h))

theorem storedRecord_above (line : PyStr) (r : Record) (h : storedRecord (rt.below frames) line = some r) :
    storedRecord rt line = some r := by
  obtain ⟨fields, hload, hrest⟩ := (storedRecord_eq_some _ _ _).mp h
  exact (storedRecord_eq_some _ _ _).mpr ⟨fields, loadsText_above rt frames line _ hload, hrest⟩

theorem computeHash_above (prevHash seq timestamp payload : Json) (digest : PyStr)
    (h : computeHash (rt.below frames) prevHash seq timestamp payload = .ok digest) :
    computeHash rt prevHash seq timestamp payload = .ok digest := by
  obtain ⟨m, hm, hdigest⟩ := (computeHash_eq_ok _ _ _ _ _ _).mp h
  obtain ⟨body, hbody, hutf8⟩ := (chainMessage_eq_ok _ _ _ _ _ _).mp hm
  refine (computeHash_eq_ok _ _ _ _ _ _).mpr ⟨m, (chainMessage_eq_ok _ _ _ _ _ _).mpr ⟨body, ?_, hutf8⟩, hdigest⟩
  exact Json.encode_le _ _ _ (Nat.sub_le _ _) payload body hbody

theorem GoodLines.above {n : Nat} {prev : Json} {lines : List PyStr} {rs : List Record}
    (h : GoodLines (rt.below frames) n prev lines rs) : GoodLines rt n prev lines rs := by
  induction h with
  | nil n prev => exact .nil n prev
  | blank n prev line lines rs hblank hrest ih => exact .blank n prev line lines rs hblank ih
  | record n prev line lines r rs hline hgood hrest ih =>
      obtain ⟨digest, hdigest, hhash⟩ := hgood.hashed
      refine .record n prev line lines r rs hline ⟨?_, hgood.seq, hgood.linked, digest, ?_, hhash⟩ ih
      · exact storedRecord_above rt frames line r hgood.stored
      · exact computeHash_above rt frames _ _ _ _ digest hdigest

-- A file that is accepted where little room is left is accepted where there is more.
theorem Chained.above {file : Option Bytes} {rs : List Record} (h : Chained (rt.below frames) file rs) :
    Chained rt file rs := by
  cases file with
  | none => exact h
  | some content => exact ⟨h.1, h.2.above⟩

theorem lastHash_above (head head' : Json) (lines : List PyStr)
    (h : lastHash (rt.below frames) head lines = .ok head') : lastHash rt head lines = .ok head' := by
  induction lines generalizing head with
  | nil => exact h
  | cons line lines ih =>
      rw [lastHash] at h ⊢
      split at h
      · next hblank => rw [if_pos hblank, ih head h]
      · next hline =>
          simp only [if_neg hline, bind_eq_ok] at h ⊢
          obtain ⟨record, hload, next, hnext, hrest⟩ := h
          exact ⟨record, loadsText_above rt frames line record hload, next, hnext, ih next hrest⟩

theorem readHead_above (file : Option Bytes) (head : Json) (h : readHead (rt.below frames) file = .ok head) :
    readHead rt file = .ok head := by
  cases file with
  | none => exact h
  | some content =>
      simp only [readHead, bind_eq_ok] at h ⊢
      obtain ⟨last, hlast, hrest⟩ := h
      exact ⟨last, lastHash_above rt frames _ last _ hlast, hrest⟩

end Above

section Below

variable (ledger ledger' : HashChainLedger) (file file' : Option Bytes) (payload record : Json) (timestamp : PyStr)

theorem computeHash_below (prevHash seq : Json) (digest : PyStr)
    (h : computeHash rt prevHash seq (.str timestamp) payload = .ok digest)
    (hdepth : Json.depth payload ≤ rt.nesting - frames) :
    computeHash (rt.below frames) prevHash seq (.str timestamp) payload = .ok digest := by
  obtain ⟨m, hm, hdigest⟩ := (computeHash_eq_ok _ _ _ _ _ _).mp h
  obtain ⟨body, hbody, hutf8⟩ := (chainMessage_eq_ok _ _ _ _ _ _).mp hm
  refine (computeHash_eq_ok _ _ _ _ _ _).mpr ⟨m, (chainMessage_eq_ok _ _ _ _ _ _).mpr ⟨body, ?_, hutf8⟩, hdigest⟩
  have hfits := (Json.encode_isOk_iff _ _ _).mp ⟨body, hbody⟩
  rw [← hbody]
  exact Json.encode_fits _ _ _ payload ((Json.fits_iff_depth _ _ _ payload hfits).mpr hdepth) hfits

theorem recordLine_below (digest : PyStr) (bs : Bytes) (h : ledger.recordLine rt timestamp payload digest = .ok bs)
    (hdepth : Json.depth (ledger.record timestamp payload digest) ≤ rt.nesting - frames) :
    ledger.recordLine (rt.below frames) timestamp payload digest = .ok bs := by
  obtain ⟨text, htext, hutf8⟩ := (recordLine_eq_ok _ _ _ _ _ _).mp h
  refine (recordLine_eq_ok _ _ _ _ _ _).mpr ⟨text, ?_, hutf8⟩
  have hfits := (Json.encode_isOk_iff _ _ _).mp ⟨text, htext⟩
  rw [← htext]
  exact Json.encode_fits _ _ _ _ ((Json.fits_iff_depth _ _ _ _ hfits).mpr hdepth) hfits

theorem depth_payload_lt (digest : PyStr) :
    Json.depth payload < Json.depth (ledger.record timestamp payload digest) :=
  Json.depth_lt_obj _ (py "payload", payload) (by simp)

-- A record that is shallow enough is appended in the same way further down.
theorem append_below (h : ledger.append rt file payload timestamp = ⟨file', ledger', .ok record⟩)
    (hdepth : Json.depth record ≤ rt.nesting - frames) :
    ledger.append (rt.below frames) file payload timestamp = ⟨file', ledger', .ok record⟩ := by
  obtain ⟨digest, bs, hdigest, hbs, rfl, rfl, rfl⟩ := append_eq_ok rt ledger ledger' file file' payload record
    timestamp h
  have hpayload := depth_payload_lt ledger payload timestamp digest
  have hbelow := computeHash_below rt frames payload timestamp _ _ digest hdigest (by omega)
  have hline := recordLine_below rt frames ledger payload timestamp digest bs hbs hdepth
  simp only [HashChainLedger.append, hbelow, hline]

-- The records that a file is accepted with are no deeper than the room that is left.
theorem depth_of_goodLines {n : Nat} {prev : Json} {lines : List PyStr} {rs : List Record}
    (h : GoodLines rt n prev lines rs) : ∀ r ∈ rs, Json.depth r.payload < rt.nesting := by
  induction h with
  | nil => simp
  | blank n prev line lines rs hblank hrest ih => exact ih
  | record n prev line lines r rs hline hgood hrest ih =>
      refine List.forall_mem_cons.mpr ⟨?_, ih⟩
      obtain ⟨fields, hload, -, -, -, hpayload, -⟩ := (storedRecord_eq_some _ _ _).mp hgood.stored
      have hfits := (Json.loads_sound _ _ _ ((loadsText_eq_ok _ _ _).mp hload)).2
      have hdepth := (Json.fits_iff_depth _ _ _ _ hfits).mp hfits
      exact (Json.depth_lt_obj fields _ (Json.mem_of_lookup _ _ _ hpayload)).trans_le hdepth

theorem depth_of_chained {rs : List Record} (h : Chained rt file rs) :
    ∀ r ∈ rs, Json.depth r.payload < rt.nesting := by
  cases file with
  | none =>
      obtain rfl := h
      simp
  | some content => exact depth_of_goodLines rt h.2

end Below

end V91Core.Ledger
