import Graphflow.Storage.DiskArrayInvariant

/-!
# Rolling back an array

`rollbackInMemoryIfNecessary` clears the versions of the array's pages and truncates the file to the
first array page that the transaction added.  The file may be shared: other arrays may already have
been rolled back, so that pages of this one no longer exist.  The rollback goes through exactly when
all PIPs that the transaction added are still there, and then clears what is left of the array.
-/

namespace Graphflow.Storage

namespace PagedFile

variable {f : PagedFile} {p q : ℕ} {ps qs : List ℕ}

/-- The file after clearing the versions of the listed pages. -/
def clearAll (f : PagedFile) (ps : List ℕ) : PagedFile := ps.foldl clearWALPageVersion f

/-- The file after clearing each listed page and truncating the file to it. -/
def dropPIPs (f : PagedFile) (qs : List ℕ) : PagedFile :=
  qs.foldl (fun f q ↦ (f.clearWALPageVersion q).removePageIdxAndTruncateIfNecessary q) f

/-- The file after the last truncation, if there is one. -/
def truncateTo (f : PagedFile) (pageIdx : Option ℕ) : PagedFile :=
  pageIdx.elim f f.removePageIdxAndTruncateIfNecessary

/-- Page groups behind the end of the file have been dropped. -/
def Resized (f : PagedFile) : Prop :=
  ∀ p, numPageGroups f.numPages ≤ p / pageGroupSize → f.version p = none

theorem WellLogged.resized (hf : f.WellLogged) : f.Resized := by
  intro p hp
  refine hf.fresh p ?_
  by_contra hlt
  have := VersionedFileHandle.div_lt_numPageGroups (Nat.lt_of_not_le hlt)
  exact absurd hp (Nat.not_le.mpr this)

@[simp] theorem clearAll_nil : f.clearAll [] = f := rfl

theorem clearAll_append : f.clearAll (ps ++ qs) = (f.clearAll ps).clearAll qs :=
  List.foldl_append

@[simp] theorem clearAll_singleton : f.clearAll [p] = f.clearWALPageVersion p := rfl

@[simp] theorem clear_numPages : (f.clearWALPageVersion p).numPages = f.numPages :=
  VersionedFileHandle.clear_numPages

theorem clear_version :
    (f.clearWALPageVersion p).version q = if q = p ∧ p < f.numPages then none else f.version q := by
  by_cases hqp : q = p
  · subst hqp
    rcases Nat.lt_or_ge q f.numPages with hlt | hge
    · simp [version, clearWALPageVersion, hlt, VersionedFileHandle.clear_pageVersions_of_lt hlt]
    · simp [version, clearWALPageVersion, Nat.not_lt.mpr hge, VersionedFileHandle.clear_of_le hge]
  · rw [if_neg fun h ↦ hqp h.1]
    exact VersionedFileHandle.clear_pageVersions_of_ne hqp

/-- Clearing a page without a version does nothing. -/
theorem clear_of_version_none (hp : f.version p = none) : f.clearWALPageVersion p = f := by
  have hupdate : Function.update f.fileHandle.pageVersions p none = f.fileHandle.pageVersions :=
    Function.update_eq_self_iff.mpr hp.symm
  simp [clearWALPageVersion, VersionedFileHandle.clearWALPageVersionIfNecessary, hupdate]

@[simp] theorem clearAll_numPages : (f.clearAll ps).numPages = f.numPages := by
  induction ps generalizing f with
  | nil => rfl
  | cons p ps ih => exact ih.trans clear_numPages

@[simp] theorem clearAll_pages : (f.clearAll ps).pages = f.pages := by
  induction ps generalizing f with
  | nil => rfl
  | cons p ps ih => exact ih

@[simp] theorem clearAll_walPages : (f.clearAll ps).walPages = f.walPages := by
  induction ps generalizing f with
  | nil => rfl
  | cons p ps ih => exact ih

theorem clearAll_version :
    (f.clearAll ps).version q = if q ∈ ps ∧ q < f.numPages then none else f.version q := by
  induction ps generalizing f with
  | nil => simp
  | cons p ps ih =>
      rw [clearAll, List.foldl_cons, ← clearAll, ih, clear_version, clear_numPages]
      by_cases hqp : q = p
      · subst hqp
        by_cases hlt : q < f.numPages <;> simp [hlt]
      · simp [hqp]

theorem Resized.clearAll (hf : f.Resized) : (f.clearAll ps).Resized := by
  intro q hq
  rw [clearAll_numPages] at hq
  rw [clearAll_version, hf q hq, ite_self]

theorem truncate_numPages :
    (f.removePageIdxAndTruncateIfNecessary p).numPages = min f.numPages p :=
  VersionedFileHandle.removePage_numPages

theorem truncate_version : (f.removePageIdxAndTruncateIfNecessary p).version q =
    if q / pageGroupSize < numPageGroups (min f.numPages p) then f.version q else none :=
  VersionedFileHandle.removePage_pageVersions

theorem truncate_resized : (f.removePageIdxAndTruncateIfNecessary p).Resized := by
  intro q hq
  rw [truncate_numPages] at hq
  rw [truncate_version, if_neg (Nat.not_lt.mpr hq)]

theorem Resized.truncate_of_le (hf : f.Resized) (hp : f.numPages ≤ p) :
    f.removePageIdxAndTruncateIfNecessary p = f := by
  have hle : f.fileHandle.numPages ≤ p := hp
  have hfun : ∀ q, (if q / pageGroupSize < numPageGroups f.fileHandle.numPages then
      f.fileHandle.pageVersions q else none) = f.fileHandle.pageVersions q := by
    intro q
    split
    · rfl
    next hgroup => exact (hf q (Nat.le_of_not_lt hgroup)).symm
  simp [removePageIdxAndTruncateIfNecessary,
    VersionedFileHandle.removePageIdxAndTruncateIfNecessary, hle,
    VersionedFileHandle.resizePageVersions, hfun]

/-- Pages behind the end of the file are passed over. -/
theorem Resized.dropPIPs_of_le (hf : f.Resized) (hqs : ∀ q ∈ qs, f.numPages ≤ q) :
    f.dropPIPs qs = f := by
  induction qs with
  | nil => rfl
  | cons q qs ih =>
      have hle := hqs q List.mem_cons_self
      have hclear : f.clearWALPageVersion q = f := by
        simp [clearWALPageVersion, VersionedFileHandle.clear_of_le hle]
      rw [dropPIPs, List.foldl_cons, ← dropPIPs, hclear, hf.truncate_of_le hle]
      exact ih fun r hr ↦ hqs r (List.mem_cons_of_mem _ hr)

/-- The first of the PIPs is where the file is truncated to. -/
theorem dropPIPs_cons (hspaced : ∀ r ∈ qs, q + pageGroupSize ≤ r) :
    f.dropPIPs (q :: qs) = (f.clearWALPageVersion q).removePageIdxAndTruncateIfNecessary q := by
  refine truncate_resized.dropPIPs_of_le fun r hr ↦ ?_
  have hle := hspaced r hr
  rw [truncate_numPages]
  omega

theorem dropPIPs_numPages (hspaced : qs.Pairwise fun p q ↦ p + pageGroupSize ≤ q)
    (hqs : ∀ q ∈ qs, q < f.numPages) : (f.dropPIPs qs).numPages = qs.headD f.numPages := by
  cases qs with
  | nil => rfl
  | cons q qs =>
      have hlt := hqs q List.mem_cons_self
      rw [dropPIPs_cons (List.pairwise_cons.mp hspaced).1, truncate_numPages, clear_numPages]
      exact Nat.min_eq_right hlt.le

/-- Truncating to the first of the PIPs drops the others with their page groups. -/
theorem Resized.dropPIPs_version (hf : f.Resized)
    (hspaced : qs.Pairwise fun p q ↦ p + pageGroupSize ≤ q) (hqs : ∀ q ∈ qs, q < f.numPages) :
    (f.dropPIPs qs).version p =
      if p / pageGroupSize < numPageGroups (qs.headD f.numPages) ∧ p ∉ qs then f.version p
      else none := by
  cases qs with
  | nil =>
      split
      · rfl
      next hgroup => exact hf p (by simpa using hgroup)
  | cons q qs =>
      have hlt := hqs q List.mem_cons_self
      obtain ⟨hq, -⟩ := List.pairwise_cons.mp hspaced
      rw [dropPIPs_cons hq, truncate_version, clear_version, clear_numPages,
        Nat.min_eq_right hlt.le, List.headD_cons]
      have hdropped : p ∈ qs → ¬p / pageGroupSize < numPageGroups q := by
        intro hp hgroup
        have hle := hq p hp
        unfold numPageGroups pageGroupSize at hgroup
        unfold pageGroupSize at hle
        omega
      by_cases hgroup : p / pageGroupSize < numPageGroups q
      · have hnot : p ∉ qs := fun hp ↦ hdropped hp hgroup
        by_cases hpq : p = q <;> simp [hgroup, hnot, hpq, hlt]
      · simp [hgroup]

theorem truncateTo_numPages {m : Option ℕ} :
    (f.truncateTo m).numPages = m.elim f.numPages (min f.numPages) := by
  cases m with
  | none => rfl
  | some m => exact truncate_numPages

theorem Resized.truncateTo_version (hf : f.Resized) {m : Option ℕ} :
    (f.truncateTo m).version p =
      if p / pageGroupSize < numPageGroups (f.truncateTo m).numPages then f.version p
        else none := by
  cases m with
  | none =>
      split
      · rfl
      next hgroup => exact hf p (Nat.le_of_not_lt hgroup)
  | some m =>
      rw [truncateTo_numPages]
      exact truncate_version

theorem dropPIPs_pages : (f.dropPIPs qs).pages = f.pages := by
  induction qs generalizing f with
  | nil => rfl
  | cons q qs ih => exact ih

theorem dropPIPs_walPages : (f.dropPIPs qs).walPages = f.walPages := by
  induction qs generalizing f with
  | nil => rfl
  | cons q qs ih => exact ih

theorem truncateTo_pages {m : Option ℕ} : (f.truncateTo m).pages = f.pages := by
  cases m <;> rfl

theorem truncateTo_walPages {m : Option ℕ} : (f.truncateTo m).walPages = f.walPages := by
  cases m <;> rfl

theorem Resized.dropPIPs (hf : f.Resized)
    (hspaced : qs.Pairwise fun p q ↦ p + pageGroupSize ≤ q) (hqs : ∀ q ∈ qs, q < f.numPages) :
    (f.dropPIPs qs).Resized := by
  intro p hp
  rw [dropPIPs_numPages hspaced hqs] at hp
  rw [hf.dropPIPs_version hspaced hqs, if_neg fun h ↦ absurd h.1 (Nat.not_lt.mpr hp)]

end PagedFile

namespace InMemDiskArray

variable {a a' : InMemDiskArray} {f g g' : PagedFile} {n₀ : ℕ}
  {pips aps newAPs committed working : List ℕ}

/-- The pages that describe where the array pages are. -/
def structurePages (a : InMemDiskArray) (pips : List ℕ) : List ℕ :=
  a.headerPageIdx :: (pips ++ a.pipPageIdxsOfInsertedPIPs)

/-- As far as these pages still exist in `g`, they are there as in `f`. -/
structure Intact (a : InMemDiskArray) (n₀ : ℕ) (pips : List ℕ) (f g : PagedFile) : Prop where
  walPages_eq : g.walPages = f.walPages
  le_numPages : n₀ ≤ g.numPages
  version_eq : ∀ p ∈ a.structurePages pips, p < g.numPages → g.version p = f.version p
  version_eq_none : ∀ p, f.version p = none → g.version p = none

/-- The array after a rollback. -/
def rolledBack (a : InMemDiskArray) : InMemDiskArray :=
  { a with
    updatedPipIdxs := []
    pipPageIdxsOfInsertedPIPs := []
    hasTransactionalUpdates := false }

theorem Intact.refl (h : Represents a f n₀ pips aps newAPs committed working) :
    Intact a n₀ pips f f :=
  ⟨rfl, h.le_numPages, fun _ _ _ ↦ rfl, fun _ hp ↦ hp⟩

theorem Intact.clear {p : ℕ} (hi : Intact a n₀ pips f g) (hp : p ∉ a.structurePages pips) :
    Intact a n₀ pips f (g.clearWALPageVersion p) := by
  refine ⟨hi.walPages_eq, ?_, ?_, ?_⟩
  · rw [PagedFile.clear_numPages]
    exact hi.le_numPages
  · intro q hq hlt
    rw [PagedFile.clear_numPages] at hlt
    rw [PagedFile.clear_version, if_neg, hi.version_eq q hq hlt]
    rintro ⟨rfl, -⟩
    exact hp hq
  · intro q hq
    rw [PagedFile.clear_version, hi.version_eq_none q hq, ite_self]

theorem Intact.clearAll {ps : List ℕ} (hi : Intact a n₀ pips f g)
    (hps : ∀ p ∈ ps, p ∉ a.structurePages pips) : Intact a n₀ pips f (g.clearAll ps) := by
  induction ps generalizing g with
  | nil => exact hi
  | cons p ps ih =>
      exact ih (hi.clear (hps p List.mem_cons_self)) fun q hq ↦ hps q (List.mem_cons_of_mem _ hq)

theorem Intact.readWALVersionOfPage {p : ℕ} (hi : Intact a n₀ pips f g)
    (hp : p ∈ a.structurePages pips) (hlt : p < g.numPages) (hver : f.version p ≠ none) :
    g.readWALVersionOfPage p = .ok (f.view p) := by
  obtain ⟨w, hw⟩ := Option.ne_none_iff_exists'.mp hver
  simp [PagedFile.readWALVersionOfPage, Nat.not_le.mpr hlt, hi.version_eq p hp hlt, hw,
    PagedFile.view_of_version hw, hi.walPages_eq]

theorem Represents.ap_not_mem_structurePages {p : ℕ}
    (h : Represents a f n₀ pips aps newAPs committed working) (hp : p ∈ aps ++ newAPs) :
    p ∉ a.structurePages pips := by
  intro hmem
  rcases List.mem_cons.mp hmem with rfl | hmem
  · exact h.seen.header_not_mem_aps hp
  · exact h.seen.not_mem_pips_of_mem_aps hp hmem

/-! ## Finding the pages of the array -/

theorem Intact.getNumAPs_write (hi : Intact a n₀ pips f g)
    (h : Represents a f n₀ pips aps newAPs committed working) (hf : f.WellLogged) :
    a.getNumAPs g .write = .ok (aps ++ newAPs).length := by
  have hmem : a.headerPageIdx ∈ a.structurePages pips := List.mem_cons_self
  have hlt : a.headerPageIdx < g.numPages :=
    Nat.lt_of_lt_of_le (h.old_lt _ List.mem_cons_self) hi.le_numPages
  have hread := h.getNumAPs_write hf
  by_cases hver : f.version a.headerPageIdx = none
  · simp only [getNumAPs, readHeader, hi.version_eq _ hmem hlt, hver] at hread ⊢
    exact hread
  · simp only [getNumAPs, readHeader, hi.version_eq _ hmem hlt, hver,
      PagedFile.readWALVersionOfPage_eq hf hver, hi.readWALVersionOfPage hmem hlt hver] at hread ⊢
    exact hread

theorem Intact.getAPPageIdx_write (hi : Intact a n₀ pips f g)
    (h : Represents a f n₀ pips aps newAPs committed working) (hf : f.WellLogged)
    (hpips : ∀ q ∈ a.pipPageIdxsOfInsertedPIPs, q < g.numPages) {i p : ℕ}
    (hp : (aps ++ newAPs)[i]? = some p) : a.getAPPageIdx g i .write = .ok p := by
  have hread := h.getAPPageIdx_write hf hp
  obtain ⟨q, hq, -⟩ := h.seen.entries i p hp
  have hmem : q ∈ a.structurePages pips := List.mem_cons_of_mem _ (List.mem_of_getElem? hq)
  have hlt : q < g.numPages := by
    rcases List.mem_append.mp (List.mem_of_getElem? hq) with hold | hnew
    · exact Nat.lt_of_lt_of_le (h.old_lt q (by simp [oldPages, hold])) hi.le_numPages
    · exact hpips q hnew
  by_cases hno : a.hasPIPUpdates (i / 1023) = false
  · simpa [getAPPageIdx, numPageIdxsPerPIP, hno] using hread
  · have hver := (h.hasPIPUpdates_iff hq).mp (by simpa using hno)
    simp only [getAPPageIdx, numPageIdxsPerPIP, hno, h.getUpdatedPageIdxOfPip_eq hq, Lib.ok_bind,
      PagedFile.readWALVersionOfPage_eq hf hver, hi.readWALVersionOfPage hmem hlt hver] at hread ⊢
    exact hread

/-! ## The loops -/

theorem min?_append_singleton (ps : List ℕ) (p : ℕ) :
    (ps ++ [p]).min? = some (ps.min?.elim p (min · p)) := by
  cases ps with
  | nil => rfl
  | cons q ps =>
      rw [List.cons_append, List.min?_cons', List.min?_cons', List.foldl_append]
      rfl

theorem Represents.rollback_old_aps (h : Represents a f n₀ pips aps newAPs committed working) :
    (List.range aps.length).foldlM (checkpointOrRollbackOldAP false) (a, g) =
      .ok (a, g.clearAll aps) := by
  have hloop : (List.range' 0 aps.length).foldlM (checkpointOrRollbackOldAP false)
      (a, g.clearAll (aps.take 0)) = .ok (a, g.clearAll (aps.take aps.length)) := by
    refine Lib.foldlM_range'_eq_ok (fun k ↦ (a, g.clearAll (aps.take k))) fun k hk ↦ ?_
    have hp := List.getElem?_eq_getElem hk
    have hread : a.getAPPageIdx (g.clearAll (aps.take k)) (0 + k) .readOnly = .ok aps[k] := by
      rw [Nat.zero_add]
      exact h.getAPPageIdx_readOnly hp
    rw [← List.take_concat_get' _ _ hk, PagedFile.clearAll_append, PagedFile.clearAll_singleton]
    simp only [checkpointOrRollbackOldAP, hread, Lib.ok_bind]
    split
    next hnone => rw [PagedFile.clear_of_version_none hnone, Lib.pure_eq_ok]
    next => rfl
  simpa [List.range_eq_range'] using hloop

theorem Represents.rollback_new_aps (h : Represents a f n₀ pips aps newAPs committed working)
    (hf : f.WellLogged) (hi : Intact a n₀ pips f g)
    (hpips : ∀ q ∈ a.pipPageIdxsOfInsertedPIPs, q < g.numPages) :
    (List.range' aps.length newAPs.length).foldlM (checkpointOrRollbackNewAP false) (a, g, none) =
      .ok (a, g.clearAll newAPs, newAPs.min?) := by
  have hloop : (List.range' aps.length newAPs.length).foldlM (checkpointOrRollbackNewAP false)
      (a, g.clearAll (newAPs.take 0), (newAPs.take 0).min?) =
        .ok (a, g.clearAll (newAPs.take newAPs.length), (newAPs.take newAPs.length).min?) := by
    refine Lib.foldlM_range'_eq_ok
      (fun k ↦ (a, g.clearAll (newAPs.take k), (newAPs.take k).min?)) fun k hk ↦ ?_
    have hi' : Intact a n₀ pips f (g.clearAll (newAPs.take k)) := hi.clearAll fun p hp ↦
      h.ap_not_mem_structurePages (List.mem_append_right _ (List.mem_of_mem_take hp))
    have hread : a.getAPPageIdx (g.clearAll (newAPs.take k)) (aps.length + k) .write =
        .ok newAPs[k] := by
      refine hi'.getAPPageIdx_write h hf (by simpa using hpips) ?_
      rw [List.getElem?_append_right (Nat.le_add_right _ _), Nat.add_sub_cancel_left,
        List.getElem?_eq_getElem hk]
    rw [← List.take_concat_get' _ _ hk, PagedFile.clearAll_append, PagedFile.clearAll_singleton]
    simp only [checkpointOrRollbackNewAP, hread, Lib.ok_bind, Bool.false_eq_true, if_false,
      Lib.pure_eq_ok, min?_append_singleton]
  simpa using hloop

theorem rollback_new_ap_preserves {s s' : InMemDiskArray × PagedFile × Option ℕ} {n apIdx : ℕ}
    (hs : s.1 = a ∧ s.2.1.numPages = n)
    (hstep : checkpointOrRollbackNewAP false s apIdx = .ok s') :
    s'.1 = a ∧ s'.2.1.numPages = n := by
  obtain ⟨a₁, g₁, m⟩ := s
  cases hread : a₁.getAPPageIdx g₁ apIdx .write with
  | error fault => simp [checkpointOrRollbackNewAP, hread] at hstep
  | ok apPageIdx =>
      simp only [checkpointOrRollbackNewAP, hread, Lib.ok_bind, Bool.false_eq_true, if_false,
        Lib.pure_eq_ok, Except.ok.injEq] at hstep
      subst hstep
      exact ⟨hs.1, PagedFile.clear_numPages.trans hs.2⟩

theorem Represents.rollback_updated_pips
    (h : Represents a f n₀ pips aps newAPs committed working) :
    a.updatedPipIdxs.foldlM (checkpointOrRollbackUpdatedPIP false) (a, g) =
      .ok (a, g.clearAll (a.updatedPipIdxs.map (pips.getD · 0))) := by
  refine Lib.foldlM_eq_ok (fun done ↦ (a, g.clearAll (done.map (pips.getD · 0))))
    fun done k rest heq ↦ ?_
  have hk : k < pips.length := h.updated_lt k (by simp [heq])
  have hget := h.pips_getElem? (List.getElem?_eq_getElem hk)
  rw [List.map_append, PagedFile.clearAll_append]
  simp [checkpointOrRollbackUpdatedPIP, hget, hk]

theorem rollback_inserted_pips (qs : List ℕ) :
    qs.foldl (checkpointOrRollbackInsertedPIP false) (a, g) = (a, g.dropPIPs qs) := by
  induction qs generalizing g with
  | nil => rfl
  | cons q qs ih => exact ih

/-- The rollback when the PIPs it dereferences exist. -/
theorem Represents.rollback_eq_ok (h : Represents a f n₀ pips aps newAPs committed working)
    (hf : f.WellLogged) (hi : Intact a n₀ pips f g)
    (hpips : ∀ q ∈ a.pipPageIdxsOfInsertedPIPs, q < g.numPages)
    (hflag : a.hasTransactionalUpdates = true) :
    a.rollbackInMemoryIfNecessary g = .ok (a.rolledBack,
      ((g.clearAll (aps ++ newAPs ++ a.headerPageIdx ::
        a.updatedPipIdxs.map (pips.getD · 0))).dropPIPs a.pipPageIdxsOfInsertedPIPs).truncateTo
          newAPs.min?) := by
  have hi' : Intact a n₀ pips f (g.clearAll aps) := hi.clearAll fun p hp ↦
    h.ap_not_mem_structurePages (List.mem_append_left _ hp)
  have hnumAPs : a.header.numAPs = aps.length := by rw [h.header_eq]
  have hnew : (aps ++ newAPs).length - aps.length = newAPs.length := by simp
  have hnewLoop := h.rollback_new_aps hf hi' (by simpa using hpips)
  have hfile : ((g.clearAll aps).clearAll newAPs).clearWALPageVersion a.headerPageIdx =
      g.clearAll (aps ++ newAPs ++ [a.headerPageIdx]) := by
    rw [PagedFile.clearAll_append, PagedFile.clearAll_append, PagedFile.clearAll_singleton]
  simp only [rollbackInMemoryIfNecessary, checkpointOrRollbackInMemoryIfNecessary, hflag,
    Bool.true_eq_false, if_false, hnumAPs, h.rollback_old_aps, Lib.ok_bind,
    hi'.getNumAPs_write h hf, hnew, hnewLoop, checkpointOrRollbackBase, Bool.false_eq_true, hfile,
    h.rollback_updated_pips, rollback_inserted_pips, Lib.pure_eq_ok]
  rw [← PagedFile.clearAll_append, List.append_assoc _ [_], List.singleton_append]
  cases newAPs.min? <;> rfl

/-! ## What is left of the file -/

/-- The file `g'` is left of `g` by the rollback of an array with the given pages. -/
structure RollsBack (pages newAPs : List ℕ) (g g' : PagedFile) : Prop where
  pages_eq : g'.pages = g.pages
  walPages_eq : g'.walPages = g.walPages
  numPages_eq : g'.numPages = newAPs.foldl min g.numPages
  version_eq : ∀ p, g'.version p =
    if p / pageGroupSize < numPageGroups g'.numPages ∧ ¬(p ∈ pages ∧ p < g.numPages) then
      g.version p else none

theorem foldl_min_eq_elim (ps : List ℕ) (n : ℕ) :
    ps.foldl min n = ps.min?.elim n (min n) := by
  induction ps using List.reverseRecOn with
  | nil => rfl
  | append_singleton ps p ih =>
      rw [min?_append_singleton, List.foldl_append, ih]
      cases ps.min? with
      | none => rfl
      | some m => exact Nat.min_assoc n m p

theorem foldl_min_le (ps : List ℕ) (n : ℕ) : ps.foldl min n ≤ n := by
  induction ps generalizing n with
  | nil => exact le_rfl
  | cons p ps ih => exact (ih _).trans (Nat.min_le_left n p)

theorem foldl_min_le_of_mem {ps : List ℕ} {p : ℕ} (n : ℕ) (hp : p ∈ ps) : ps.foldl min n ≤ p := by
  induction ps generalizing n with
  | nil => simp at hp
  | cons q ps ih =>
      rcases List.mem_cons.mp hp with rfl | hp
      · exact (foldl_min_le ps _).trans (Nat.min_le_right n p)
      · exact ih _ hp

theorem le_foldl_min {ps : List ℕ} {m n : ℕ} (hn : m ≤ n) (hps : ∀ p ∈ ps, m ≤ p) :
    m ≤ ps.foldl min n := by
  induction ps generalizing n with
  | nil => exact hn
  | cons p ps ih =>
      exact ih (Nat.le_min.mpr ⟨hn, hps p List.mem_cons_self⟩)
        fun q hq ↦ hps q (List.mem_cons_of_mem _ hq)

theorem RollsBack.numPages_le {pages : List ℕ} (hr : RollsBack pages newAPs g g') :
    g'.numPages ≤ g.numPages := by
  rw [hr.numPages_eq]
  exact foldl_min_le newAPs g.numPages

theorem RollsBack.resized {pages : List ℕ} (hr : RollsBack pages newAPs g g') : g'.Resized := by
  intro p hp
  rw [hr.version_eq, if_neg fun h ↦ absurd h.1 (Nat.not_lt.mpr hp)]

/-- The loops over array pages and PIPs leave no version on the pages they visit. -/
theorem Represents.clearAll_version (h : Represents a f n₀ pips aps newAPs committed working)
    (hi : Intact a n₀ pips f g) (p : ℕ) :
    (g.clearAll (aps ++ newAPs ++ a.headerPageIdx ::
      a.updatedPipIdxs.map (pips.getD · 0))).version p =
        if p ∈ a.oldPages pips aps ++ newAPs ∧ p < g.numPages then none else g.version p := by
  rw [PagedFile.clearAll_version]
  have hupdated : p ∈ a.updatedPipIdxs.map (pips.getD · 0) → p ∈ pips := by
    intro hmem
    obtain ⟨k, hk, rfl⟩ := List.mem_map.mp hmem
    have hlt := h.updated_lt k hk
    simp [hlt]
  have hnone : p ∈ pips → p ∉ a.updatedPipIdxs.map (pips.getD · 0) → g.version p = none := by
    intro hmem hnot
    obtain ⟨k, hk⟩ := List.mem_iff_getElem?.mp hmem
    refine hi.version_eq_none p (not_not.mp fun hver ↦ hnot ?_)
    refine List.mem_map.mpr ⟨k, (h.updated_iff k p hk).mpr hver, ?_⟩
    simp [List.getD, hk]
  generalize a.updatedPipIdxs.map (pips.getD · 0) = updated at hupdated hnone ⊢
  by_cases hlt : p < g.numPages
  · simp only [oldPages, List.mem_append, List.mem_cons, hlt, and_true]
    by_cases hmem : p ∈ updated
    · simp [hmem, hupdated hmem]
    · by_cases hpips : p ∈ pips
      · simp [hnone hpips hmem]
      · simp only [hmem, hpips]
        grind
  · simp [hlt]

/-- An array without transactional updates has no page that a rollback would have to visit. -/
theorem Represents.rollback_of_clean (h : Represents a f n₀ pips aps newAPs committed working)
    (hi : Intact a n₀ pips f g) (hg : g.Resized) (hflag : a.hasTransactionalUpdates = false) :
    a.rollbackInMemoryIfNecessary g = .ok (a.rolledBack, g) ∧
      RollsBack (a.oldPages pips aps ++ a.newPages newAPs) newAPs g g := by
  obtain ⟨hnew, hold, -⟩ := h.clean hflag
  have hinserted : a.pipPageIdxsOfInsertedPIPs = [] := (List.append_eq_nil_iff.mp hnew).1
  have hnewAPs : newAPs = [] := (List.append_eq_nil_iff.mp hnew).2
  have hupdated : a.updatedPipIdxs = [] := by
    refine List.eq_nil_iff_forall_not_mem.mpr fun k hk ↦ ?_
    have hget := List.getElem?_eq_getElem (h.updated_lt k hk)
    refine (h.updated_iff k _ hget).mp hk (hold _ ?_)
    simp [oldPages]
  have hrolledBack : a.rolledBack = a := by
    obtain ⟨_, _, _, _, flag, updated, inserted⟩ := a
    simp only at hflag hupdated hinserted
    simp [rolledBack, hflag, hupdated, hinserted]
  refine ⟨?_, rfl, rfl, by simp [hnewAPs], fun p ↦ ?_⟩
  · simp [rollbackInMemoryIfNecessary, checkpointOrRollbackInMemoryIfNecessary, hflag, hrolledBack]
  · by_cases hgroup : p / pageGroupSize < numPageGroups g.numPages
    · by_cases hmem : p ∈ a.oldPages pips aps
      · simp [hi.version_eq_none p (hold p hmem)]
      · simp [hgroup, hmem, hnew]
    · simp [hgroup, hg p (Nat.le_of_not_lt hgroup)]

/-- The rollback of an array all of whose new PIPs exist succeeds. -/
theorem Represents.rollback_spec (h : Represents a f n₀ pips aps newAPs committed working)
    (hf : f.WellLogged) (hi : Intact a n₀ pips f g) (hg : g.Resized)
    (hpips : ∀ q ∈ a.pipPageIdxsOfInsertedPIPs, q < g.numPages) :
    ∃ g', a.rollbackInMemoryIfNecessary g = .ok (a.rolledBack, g') ∧
      RollsBack (a.oldPages pips aps ++ a.newPages newAPs) newAPs g g' := by
  cases hflag : a.hasTransactionalUpdates with
  | false => exact ⟨g, h.rollback_of_clean hi hg hflag⟩
  | true =>
      refine ⟨_, h.rollback_eq_ok hf hi hpips hflag, ?_⟩
      have hversion := h.clearAll_version hi
      obtain ⟨k, hk⟩ : ∃ k, k = g.clearAll (aps ++ newAPs ++ a.headerPageIdx ::
        a.updatedPipIdxs.map (pips.getD · 0)) := ⟨_, rfl⟩
      have hnumPages : k.numPages = g.numPages := by simp [hk]
      have hresized : k.Resized := hk ▸ hg.clearAll
      have hpips' : ∀ q ∈ a.pipPageIdxsOfInsertedPIPs, q < k.numPages := by simpa [hk] using hpips
      have hdropped := hresized.dropPIPs h.spaced hpips'
      have hdroppedNum := PagedFile.dropPIPs_numPages h.spaced hpips'
      -- The array page behind which the first PIP was added decides where the file ends.
      have hfinal : ((k.dropPIPs a.pipPageIdxsOfInsertedPIPs).truncateTo newAPs.min?).numPages =
          newAPs.foldl min g.numPages := by
        rw [PagedFile.truncateTo_numPages, foldl_min_eq_elim, hdroppedNum, hnumPages]
        cases hinserted : a.pipPageIdxsOfInsertedPIPs with
        | nil => rfl
        | cons q qs =>
            obtain ⟨p, hp, hlt⟩ := h.exists_lt q (by simp [hinserted])
            have hq := hpips q (by simp [hinserted])
            obtain ⟨m, hm⟩ := Option.isSome_iff_exists.mp
              (List.isSome_min?_of_mem hp)
            have hmp := (List.min?_eq_some_iff.mp hm).2 p hp
            simp only [hm, Option.elim_some, List.headD_cons]
            omega
      rw [← hk] at hversion ⊢
      refine ⟨?_, ?_, hfinal, fun p ↦ ?_⟩
      · rw [PagedFile.truncateTo_pages, PagedFile.dropPIPs_pages, hk, PagedFile.clearAll_pages]
      · rw [PagedFile.truncateTo_walPages, PagedFile.dropPIPs_walPages, hk,
          PagedFile.clearAll_walPages]
      · have hle : ((k.dropPIPs a.pipPageIdxsOfInsertedPIPs).truncateTo newAPs.min?).numPages ≤
            a.pipPageIdxsOfInsertedPIPs.headD k.numPages := by
          rw [PagedFile.truncateTo_numPages, hdroppedNum]
          cases newAPs.min? with
          | none => exact le_rfl
          | some m => exact Nat.min_le_left _ _
        rw [hdropped.truncateTo_version, hresized.dropPIPs_version h.spaced hpips', hversion]
        have hmono := VersionedFileHandle.numPageGroups_mono hle
        by_cases hgroup : p / pageGroupSize < numPageGroups
          ((k.dropPIPs a.pipPageIdxsOfInsertedPIPs).truncateTo newAPs.min?).numPages
        · have hgroup' := Nat.lt_of_lt_of_le hgroup hmono
          by_cases hins : p ∈ a.pipPageIdxsOfInsertedPIPs
          · simp [hins, hpips p hins, newPages]
          · simp only [hgroup, hgroup', hins, newPages, List.mem_append]
            grind
        · simp [hgroup]

/-- The first page that the transaction has added is an array page. -/
theorem Represents.mem_newAPs (h : Represents a f n₀ pips aps newAPs committed working)
    (hmem : n₀ ∈ a.newPages newAPs) : n₀ ∈ newAPs := by
  rcases List.mem_append.mp hmem with hpip | hap
  · obtain ⟨p, hp, hlt⟩ := h.exists_lt n₀ hpip
    have hle := h.le_new p (List.mem_append_right _ hp)
    omega
  · exact hap

/-- The rollback does not survive the loss of a PIP that the transaction added. -/
theorem Represents.rollback_ne_ok (h : Represents a f n₀ pips aps newAPs committed working)
    (hf : f.WellLogged) (hi : Intact a n₀ pips f g) {q : ℕ}
    (hq : q ∈ a.pipPageIdxsOfInsertedPIPs) (hlost : g.numPages ≤ q)
    (r : InMemDiskArray × PagedFile) : a.rollbackInMemoryIfNecessary g ≠ .ok r := by
  intro hok
  have hflag : a.hasTransactionalUpdates = true := by
    by_contra hclean
    have hnew := (h.clean (by simpa using hclean)).1
    simp [(List.append_eq_nil_iff.mp hnew).1] at hq
  have hi' : Intact a n₀ pips f (g.clearAll aps) := hi.clearAll fun p hp ↦
    h.ap_not_mem_structurePages (List.mem_append_left _ hp)
  have hnumAPs : a.header.numAPs = aps.length := by rw [h.header_eq]
  have hnew : (aps ++ newAPs).length - aps.length = newAPs.length := by simp
  simp only [rollbackInMemoryIfNecessary, checkpointOrRollbackInMemoryIfNecessary, hflag,
    Bool.true_eq_false, if_false, hnumAPs, h.rollback_old_aps, Lib.ok_bind,
    hi'.getNumAPs_write h hf, hnew] at hok
  obtain ⟨j, hj⟩ := List.mem_iff_getElem?.mp hq
  obtain ⟨hjlt, -⟩ := List.getElem?_eq_some_iff.mp hj
  have hlengthOld := h.disk.length_pips
  have hlengthNew := h.seen.length_pips
  simp only [List.length_append] at hlengthNew
  -- The first array page entered in the lost PIP.
  have hmem : 1023 * (pips.length + j) ∈ List.range' aps.length newAPs.length := by
    rw [List.mem_range'_1]
    omega
  cases hloop : (List.range' aps.length newAPs.length).foldlM (checkpointOrRollbackNewAP false)
      (a, g.clearAll aps, none) with
  | error fault => simp [hloop] at hok
  | ok s =>
      obtain ⟨⟨a₁, g₁, m⟩, s₂, ⟨ha₁, hnum⟩, hstep⟩ := Lib.exists_step_of_foldlM_eq_ok
        (fun s ↦ s.1 = a ∧ s.2.1.numPages = g.numPages) hloop ⟨rfl, by simp⟩
        (fun _ _ _ ↦ rollback_new_ap_preserves) hmem
      simp only at ha₁ hnum
      subst ha₁
      have hpip : (pips ++ a₁.pipPageIdxsOfInsertedPIPs)[pips.length + j]? = some q := by
        rw [List.getElem?_append_right (Nat.le_add_right _ _), Nat.add_sub_cancel_left, hj]
      have hidx : 1023 * (pips.length + j) / 1023 = pips.length + j := by omega
      have hupdates : a₁.hasPIPUpdates (pips.length + j) = true := by
        simp [hasPIPUpdates, h.length_pips]
      have hread : g₁.readWALVersionOfPage q = .error .invalidAccess := by
        simp [PagedFile.readWALVersionOfPage, hnum, hlost]
      simp [checkpointOrRollbackNewAP, getAPPageIdx, numPageIdxsPerPIP, hidx, hupdates,
        h.getUpdatedPageIdxOfPip_eq hpip, hread] at hstep

end InMemDiskArray

end Graphflow.Storage
