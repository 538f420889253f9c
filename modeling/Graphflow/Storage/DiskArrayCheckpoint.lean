import Graphflow.Storage.DiskArrayRollback

/-!
# Checkpointing an array

`checkpointInMemoryIfNecessary` runs after the replayer has copied the logged pages over their
originals, so that the disk shows what the write transaction saw.  It reloads the changed parts of
the array into memory, part by part, and clears the versions.
-/

namespace Graphflow.Storage

namespace PagedFile

variable {f : PagedFile} {p : ℕ}

/-- Copying the logged pages makes the disk show what the write transaction saw. -/
theorem WellLogged.replayPages_pages (hf : f.WellLogged) : f.replayPages.pages = f.view := by
  have hfold : ∀ (records : List PageRecord) (pages : ℕ → Page),
      (∀ r ∈ records, f.version r.pageIdxInOriginalFile = some r.pageIdxInWAL) → ∀ p,
      records.foldl (fun pages r ↦
        Function.update pages r.pageIdxInOriginalFile (f.walPages r.pageIdxInWAL)) pages p =
          if ∃ r ∈ records, r.pageIdxInOriginalFile = p then f.view p else pages p := by
    intro records
    induction records with
    | nil => simp
    | cons r records ih =>
        intro pages hversion p
        rw [List.foldl_cons, ih _ fun r' hr' ↦ hversion r' (List.mem_cons_of_mem _ hr')]
        by_cases hrest : ∃ r' ∈ records, r'.pageIdxInOriginalFile = p
        · obtain ⟨r', hr', hp⟩ := hrest
          rw [if_pos ⟨r', hr', hp⟩, if_pos ⟨r', List.mem_cons_of_mem _ hr', hp⟩]
        · rw [if_neg hrest]
          by_cases hp : p = r.pageIdxInOriginalFile
          · subst hp
            rw [Function.update_self, if_pos ⟨r, List.mem_cons_self, rfl⟩,
              view_of_version (hversion r List.mem_cons_self)]
          · rw [Function.update_of_ne hp, if_neg]
            rintro ⟨r', hr', hp'⟩
            rcases List.mem_cons.mp hr' with rfl | hr'
            · exact hp hp'.symm
            · exact hrest ⟨r', hr', hp'⟩
  funext p
  refine (hfold _ _ hf.record_version p).trans ?_
  split
  · rfl
  next hnone =>
    refine (view_of_version_none ?_).symm
    by_contra hver
    obtain ⟨w, hw⟩ := Option.ne_none_iff_exists'.mp hver
    exact hnone (hf.recorded p w hw)

@[simp] theorem replayPages_version : f.replayPages.version p = f.version p := rfl

@[simp] theorem replayPages_numPages : f.replayPages.numPages = f.numPages := rfl

@[simp] theorem replayPages_walPages : f.replayPages.walPages = f.walPages := rfl

@[simp] theorem clearWAL_version : f.clearWAL.version p = f.version p := rfl

@[simp] theorem clearWAL_numPages : f.clearWAL.numPages = f.numPages := rfl

@[simp] theorem clearWAL_pages : f.clearWAL.pages = f.pages := rfl

theorem wellLogged_of_no_version (hnone : ∀ p, f.version p = none) (hrecords : f.records = []) :
    f.WellLogged := by
  refine ⟨fun p _ ↦ hnone p, ?_, ?_, ?_, ?_⟩
  · simp [hnone]
  · simp [hnone]
  · simp [hnone]
  · simp [hrecords]

/-- When no page has a version, the log can be emptied. -/
theorem wellLogged_clearWAL (hnone : ∀ p, f.version p = none) : f.clearWAL.WellLogged :=
  wellLogged_of_no_version hnone rfl

theorem view_eq_pages (hnone : ∀ p, f.version p = none) : f.view = f.pages := by
  funext p
  exact view_of_version_none (hnone p)

end PagedFile

namespace InMemDiskArray

variable {a : InMemDiskArray} {f g : PagedFile} {n₀ : ℕ}
  {pips aps newAPs committed working : List ℕ}

theorem Represents.replay_intact (h : Represents a f n₀ pips aps newAPs committed working) :
    Intact a n₀ pips f f.replayPages :=
  ⟨rfl, h.le_numPages, fun _ _ _ ↦ rfl, fun _ hp ↦ hp⟩

/-! ## Reloading the parts of a list -/

section Reload

variable {β : Type*} {ps done : List ℕ} {new old : ℕ → β} {k p : ℕ}

/-- The values in memory when those of `done` have been reloaded. -/
def reloaded (new old : ℕ → β) (ps done : List ℕ) : List β :=
  ps.map fun p ↦ if p ∈ done then new p else old p

theorem reloaded_nil : reloaded new old ps [] = ps.map old := by simp [reloaded]

theorem reloaded_of_forall (h : ∀ p ∈ ps, p ∉ done → new p = old p) :
    reloaded new old ps done = ps.map new := by
  refine List.map_congr_left fun p hp ↦ ?_
  split
  · rfl
  next hnot => exact (h p hp hnot).symm

theorem reloaded_append_of_eq (hp : new p = old p) :
    reloaded new old ps (done ++ [p]) = reloaded new old ps done := by
  refine List.map_congr_left fun q _ ↦ ?_
  by_cases hqp : q = p
  · subst hqp
    simp [hp]
  · simp [hqp]

theorem reloaded_set (hnodup : ps.Nodup) (hk : ps[k]? = some p) :
    (reloaded new old ps done).set k (new p) = reloaded new old ps (done ++ [p]) := by
  obtain ⟨hlt, rfl⟩ := List.getElem?_eq_some_iff.mp hk
  refine List.ext_getElem (by simp [reloaded]) fun i hi _ ↦ ?_
  simp only [reloaded, List.length_set, List.length_map] at hi
  by_cases hik : i = k
  · subst hik
    simp [reloaded]
  · have hne : ps[i] ≠ ps[k] := fun heq ↦ hik ((List.Nodup.getElem_inj_iff hnodup).mp heq)
    simp [reloaded, List.getElem_set_ne (Ne.symm hik), hne]

end Reload

def reloadedArrayPages (f : PagedFile) : List ℕ → List ℕ → List (ℕ → ℕ) :=
  reloaded (fun p ↦ (f.view p).asArray) fun p ↦ (f.pages p).asArray

def reloadedPIPs (f : PagedFile) : List ℕ → List ℕ → List PIPWrapper :=
  reloaded (fun p ↦ ⟨p, (f.view p).asPIP⟩) fun p ↦ ⟨p, (f.pages p).asPIP⟩

/-! ## The loops -/

theorem Represents.checkpoint_old_aps (h : Represents a f n₀ pips aps newAPs committed working)
    (hf : f.WellLogged) :
    (List.range aps.length).foldlM (checkpointOrRollbackOldAP true) (a, f.replayPages) =
      .ok ({ a with inMemArrayPages := aps.map fun p ↦ (f.view p).asArray },
        f.replayPages.clearAll aps) := by
  have hloop : (List.range' 0 aps.length).foldlM (checkpointOrRollbackOldAP true)
      ({ a with inMemArrayPages := reloadedArrayPages f aps (aps.take 0) },
        f.replayPages.clearAll (aps.take 0)) =
      .ok ({ a with inMemArrayPages := reloadedArrayPages f aps (aps.take aps.length) },
        f.replayPages.clearAll (aps.take aps.length)) := by
    refine Lib.foldlM_range'_eq_ok (fun k ↦
      ({ a with inMemArrayPages := reloadedArrayPages f aps (aps.take k) },
        f.replayPages.clearAll (aps.take k))) fun k hk ↦ ?_
    have hp := List.getElem?_eq_getElem hk
    have hread : getAPPageIdx { a with inMemArrayPages := reloadedArrayPages f aps (aps.take k) }
        (f.replayPages.clearAll (aps.take k)) k .readOnly = .ok aps[k] :=
      h.getAPPageIdx_readOnly hp
    have hversion : (f.replayPages.clearAll (aps.take k)).version aps[k] = f.version aps[k] := by
      rw [PagedFile.clearAll_version, if_neg, PagedFile.replayPages_version]
      rintro ⟨hmem, -⟩
      obtain ⟨i, hi, heq⟩ := List.mem_take_iff_getElem.mp hmem
      have := (List.Nodup.getElem_inj_iff h.disk.nodup_aps).mp heq
      omega
    rw [← List.take_concat_get' _ _ hk, PagedFile.clearAll_append, PagedFile.clearAll_singleton]
    simp only [checkpointOrRollbackOldAP, Nat.zero_add, hread, Lib.ok_bind, hversion, if_true]
    split
    next hnone =>
      rw [reloadedArrayPages, reloaded_append_of_eq (by rw [PagedFile.view_of_version_none hnone]),
        PagedFile.clear_of_version_none (hversion.trans hnone), Lib.pure_eq_ok]
    next =>
      rw [reloadedArrayPages, ← reloaded_set h.disk.nodup_aps hp, PagedFile.clearAll_pages,
        hf.replayPages_pages, Lib.pure_eq_ok]
  rw [List.take_length, List.take_zero, reloadedArrayPages, reloaded_nil,
    reloaded_of_forall fun p hp hnot ↦ absurd hp hnot, ← h.inMemArrayPages_eq] at hloop
  rw [List.range_eq_range']
  exact hloop

theorem Represents.checkpoint_new_aps (h : Represents a f n₀ pips aps newAPs committed working)
    (hf : f.WellLogged) (hi : Intact a n₀ pips f g) (hnum : g.numPages = f.numPages)
    (hpages : g.pages = f.view) (arrayPages : List (ℕ → ℕ)) :
    (List.range' aps.length newAPs.length).foldlM (checkpointOrRollbackNewAP true)
      ({ a with inMemArrayPages := arrayPages }, g, none) =
        .ok ({ a with
          inMemArrayPages := arrayPages ++ newAPs.map fun p ↦ (f.view p).asArray },
          g.clearAll newAPs, none) := by
  have hloop : (List.range' aps.length newAPs.length).foldlM (checkpointOrRollbackNewAP true)
      ({ a with inMemArrayPages := arrayPages ++ (newAPs.take 0).map fun p ↦ (f.view p).asArray },
        g.clearAll (newAPs.take 0), none) =
      .ok ({ a with inMemArrayPages := arrayPages ++
        (newAPs.take newAPs.length).map fun p ↦ (f.view p).asArray },
        g.clearAll (newAPs.take newAPs.length), none) := by
    refine Lib.foldlM_range'_eq_ok (fun k ↦ ({ a with
      inMemArrayPages := arrayPages ++ (newAPs.take k).map fun p ↦ (f.view p).asArray },
        g.clearAll (newAPs.take k), none)) fun k hk ↦ ?_
    have hi' : Intact a n₀ pips f (g.clearAll (newAPs.take k)) := hi.clearAll fun p hp ↦
      h.ap_not_mem_structurePages (List.mem_append_right _ (List.mem_of_mem_take hp))
    have hread : getAPPageIdx { a with
        inMemArrayPages := arrayPages ++ (newAPs.take k).map fun p ↦ (f.view p).asArray }
          (g.clearAll (newAPs.take k)) (aps.length + k) .write = .ok newAPs[k] := by
      refine hi'.getAPPageIdx_write h hf (fun q hq ↦ ?_) ?_
      · rw [PagedFile.clearAll_numPages, hnum]
        exact h.pip_lt hf (List.mem_append_right _ hq)
      · rw [List.getElem?_append_right (Nat.le_add_right _ _), Nat.add_sub_cancel_left,
          List.getElem?_eq_getElem hk]
    rw [← List.take_concat_get' _ _ hk, PagedFile.clearAll_append, PagedFile.clearAll_singleton]
    simp only [checkpointOrRollbackNewAP, hread, Lib.ok_bind, if_true, Lib.pure_eq_ok,
      PagedFile.clearAll_pages, hpages, List.map_append, List.map_cons, List.map_nil,
      List.append_assoc]
  simpa using hloop

theorem Represents.checkpoint_updated_pips
    (h : Represents a f n₀ pips aps newAPs committed working) (hpages : g.pages = f.view)
    (b : InMemDiskArray) (hb : b.pips = a.pips) :
    a.updatedPipIdxs.foldlM (checkpointOrRollbackUpdatedPIP true) (b, g) =
      .ok ({ b with pips := pips.map fun p ↦ ⟨p, (f.view p).asPIP⟩ },
        g.clearAll (a.updatedPipIdxs.map (pips.getD · 0))) := by
  have hloop : a.updatedPipIdxs.foldlM (checkpointOrRollbackUpdatedPIP true)
      ({ b with pips := reloadedPIPs f pips (([] : List ℕ).map (pips.getD · 0)) },
        g.clearAll (([] : List ℕ).map (pips.getD · 0))) =
      .ok ({ b with pips := reloadedPIPs f pips (a.updatedPipIdxs.map (pips.getD · 0)) },
        g.clearAll (a.updatedPipIdxs.map (pips.getD · 0))) := by
    refine Lib.foldlM_eq_ok (fun done ↦
      ({ b with pips := reloadedPIPs f pips (done.map (pips.getD · 0)) },
        g.clearAll (done.map (pips.getD · 0)))) fun done k rest heq ↦ ?_
    have hk : k < pips.length := h.updated_lt k (by simp [heq])
    have hp := List.getElem?_eq_getElem hk
    have hgetD : pips.getD k 0 = pips[k] := by simp [hk]
    obtain ⟨contents, hcontents⟩ : ∃ contents,
        (reloadedPIPs f pips (done.map (pips.getD · 0)))[k]? = some ⟨pips[k], contents⟩ := by
      simp only [reloadedPIPs, reloaded, List.getElem?_map, hp, Option.map_some]
      split <;> exact ⟨_, rfl⟩
    rw [List.map_append, List.map_singleton, hgetD, PagedFile.clearAll_append,
      PagedFile.clearAll_singleton]
    simp only [checkpointOrRollbackUpdatedPIP, hcontents, if_true, Lib.pure_eq_ok,
      PagedFile.clearAll_pages, hpages]
    rw [reloadedPIPs, ← reloaded_set h.disk.nodup_pips hp]
  rw [List.map_nil, reloadedPIPs, reloaded_nil, ← h.pips_eq, ← hb, reloaded_of_forall] at hloop
  · exact hloop
  · intro p hp hnot
    obtain ⟨k, hk⟩ := List.mem_iff_getElem?.mp hp
    have hver : f.version p = none := by
      refine not_not.mp fun hver ↦ hnot (List.mem_map.mpr ⟨k, (h.updated_iff k p hk).mpr hver, ?_⟩)
      simp [List.getD, hk]
    rw [PagedFile.view_of_version_none hver]

theorem checkpoint_inserted_pips (qs : List ℕ) (b : InMemDiskArray) (g : PagedFile) :
    qs.foldl (checkpointOrRollbackInsertedPIP true) (b, g) =
      ({ b with pips := b.pips ++ qs.map fun q ↦ ⟨q, (g.pages q).asPIP⟩ }, g.clearAll qs) := by
  induction qs generalizing b g with
  | nil => simp
  | cons q qs ih =>
      rw [List.foldl_cons, checkpointOrRollbackInsertedPIP]
      simp only [if_true]
      rw [ih]
      simp only [List.append_assoc, List.map_cons]
      rfl

/-! ## Arrays between transactions -/

/-- The array in memory that belongs to a layout of the pages on disk. -/
def ofLayout (f : PagedFile) (headerPageIdx : ℕ) (pips aps : List ℕ) : InMemDiskArray where
  headerPageIdx := headerPageIdx
  header := (f.pages headerPageIdx).asHeader
  pips := pips.map fun p ↦ ⟨p, (f.pages p).asPIP⟩
  inMemArrayPages := aps.map fun p ↦ (f.pages p).asArray

/-- Between transactions the committed and the working array are the same. -/
theorem represents_ofLayout {headerPageIdx : ℕ} {xs : List ℕ}
    (hlayout : Layout f.pages headerPageIdx pips aps xs)
    (hlt : ∀ p ∈ headerPageIdx :: (pips ++ aps), p < f.numPages)
    (hnone : ∀ p ∈ headerPageIdx :: (pips ++ aps), f.version p = none) :
    Represents (ofLayout f headerPageIdx pips aps) f f.numPages pips aps [] xs xs where
  disk := hlayout
  seen := by
    simpa [ofLayout] using hlayout.congr fun p hp ↦ PagedFile.view_of_version_none (hnone p hp)
  header_eq := hlayout.header
  pips_eq := rfl
  inMemArrayPages_eq := rfl
  old_lt := hlt
  le_numPages := le_rfl
  le_new := by simp [newPages, ofLayout]
  new_version := by simp [newPages, ofLayout]
  updated_iff := fun k p hk ↦ by
    have hver := hnone p (by simp [List.mem_of_getElem? hk])
    simp [ofLayout, hver]
  updated_lt := by simp [ofLayout]
  clean := fun _ ↦ ⟨rfl, hnone, rfl⟩
  spaced := List.Pairwise.nil
  last_add_le := by simp [ofLayout]
  exists_lt := by simp [ofLayout]

theorem Represents.rolledBack_eq (h : Represents a f n₀ pips aps newAPs committed working) :
    a.rolledBack = ofLayout f a.headerPageIdx pips aps := by
  have hheader := h.header_eq.trans h.disk.header.symm
  simp [InMemDiskArray.rolledBack, ofLayout, hheader, h.pips_eq, h.inMemArrayPages_eq]

theorem Represents.checkpoint_eq_ok (h : Represents a f n₀ pips aps newAPs committed working)
    (hf : f.WellLogged) (hflag : a.hasTransactionalUpdates = true) :
    ∃ g, a.checkpointInMemoryIfNecessary f.replayPages = .ok (ofLayout g a.headerPageIdx
        (pips ++ a.pipPageIdxsOfInsertedPIPs) (aps ++ newAPs), g) ∧
      g = f.replayPages.clearAll (aps ++ newAPs ++ a.headerPageIdx ::
        (a.updatedPipIdxs.map (pips.getD · 0) ++ a.pipPageIdxsOfInsertedPIPs)) := by
  have hi : Intact a n₀ pips f (f.replayPages.clearAll aps) := h.replay_intact.clearAll
    fun p hp ↦ h.ap_not_mem_structurePages (List.mem_append_left _ hp)
  have hnumAPs : a.header.numAPs = aps.length := by rw [h.header_eq]
  have hnew : (aps ++ newAPs).length - aps.length = newAPs.length := by simp
  have hpages := hf.replayPages_pages
  have hnewLoop := h.checkpoint_new_aps hf hi (by simp) (by simpa using hpages)
    (aps.map fun p ↦ (f.view p).asArray)
  have hgetNumAPs : getNumAPs { a with inMemArrayPages := aps.map fun p ↦ (f.view p).asArray }
      (f.replayPages.clearAll aps) .write = .ok (aps ++ newAPs).length := hi.getNumAPs_write h hf
  have hfile : ((f.replayPages.clearAll aps).clearAll newAPs).clearWALPageVersion a.headerPageIdx =
      f.replayPages.clearAll (aps ++ newAPs ++ [a.headerPageIdx]) := by
    rw [PagedFile.clearAll_append, PagedFile.clearAll_append, PagedFile.clearAll_singleton]
  have hpipLoop := h.checkpoint_updated_pips
    (g := f.replayPages.clearAll (aps ++ newAPs ++ [a.headerPageIdx])) (by simpa using hpages)
    { a with
      inMemArrayPages := (aps ++ newAPs).map fun p ↦ (f.view p).asArray
      header := (f.view a.headerPageIdx).asHeader } rfl
  rw [hflag] at hnewLoop hgetNumAPs hpipLoop
  refine ⟨_, ?_, rfl⟩
  simp only [checkpointInMemoryIfNecessary, checkpointOrRollbackInMemoryIfNecessary, hflag,
    Bool.true_eq_false, if_false, hnumAPs, h.checkpoint_old_aps hf, Lib.ok_bind, hgetNumAPs, hnew,
    hnewLoop, checkpointOrRollbackBase, if_true, hfile, PagedFile.clearAll_pages, hpages,
    ← List.map_append, hpipLoop, checkpoint_inserted_pips, Lib.pure_eq_ok]
  rw [← PagedFile.clearAll_append, ← PagedFile.clearAll_append, List.append_assoc,
    List.singleton_append]
  simp [ofLayout, hpages]

/-- The pages whose versions the checkpoint clears, as a set: old PIPs that were not updated have
no version anyway. -/
theorem Represents.checkpoint_version (h : Represents a f n₀ pips aps newAPs committed working)
    (hf : f.WellLogged) (p : ℕ) :
    (f.replayPages.clearAll (aps ++ newAPs ++ a.headerPageIdx ::
      (a.updatedPipIdxs.map (pips.getD · 0) ++ a.pipPageIdxsOfInsertedPIPs))).version p =
        if p ∈ a.oldPages pips aps ++ a.newPages newAPs then none else f.version p := by
  have hclear := h.clearAll_version h.replay_intact p
  rw [← List.cons_append, ← List.append_assoc, PagedFile.clearAll_append,
    PagedFile.clearAll_version, hclear]
  simp only [PagedFile.clearAll_numPages, PagedFile.replayPages_numPages,
    PagedFile.replayPages_version]
  by_cases hlt : p < f.numPages
  · simp only [newPages, List.mem_append, hlt, and_true]
    grind
  · have hver : f.version p = none := hf.fresh p (Nat.le_of_not_lt hlt)
    simp [hver]

/-- A checkpoint of an array that owns all pages with versions: the working array is committed. -/
theorem Represents.checkpoint_spec (h : Represents a f n₀ pips aps newAPs committed working)
    (hf : f.WellLogged)
    (hown : ∀ p, f.version p ≠ none → p ∈ a.oldPages pips aps ++ a.newPages newAPs) :
    ∃ a' g pips' aps', a.checkpointInMemoryIfNecessary f.replayPages = .ok (a', g) ∧
      g.numPages = f.numPages ∧ (∀ p, g.version p = none) ∧
      Represents a' g.clearWAL f.numPages pips' aps' [] working working := by
  have hpages := hf.replayPages_pages
  cases hflag : a.hasTransactionalUpdates with
  | false =>
      obtain ⟨hnew, hold, rfl⟩ := h.clean hflag
      have hnone : ∀ p, f.version p = none := by
        intro p
        by_contra hver
        have hmem := hown p hver
        rw [hnew, List.append_nil] at hmem
        exact hver (hold p hmem)
      have hview : f.replayPages.pages = f.pages := hpages.trans (PagedFile.view_eq_pages hnone)
      have heq : a = ofLayout f.replayPages.clearWAL a.headerPageIdx pips aps := by
        have hrolled := h.rolledBack_eq
        have hclean := (h.rollback_of_clean (Intact.refl h) hf.resized hflag).1
        simp only [rollbackInMemoryIfNecessary, checkpointOrRollbackInMemoryIfNecessary, hflag,
          if_true, Except.ok.injEq, Prod.mk.injEq, and_true] at hclean
        rw [hclean, hrolled]
        simp [ofLayout, hview]
      refine ⟨a, f.replayPages, pips, aps, ?_, rfl, hnone, ?_⟩
      · simp [checkpointInMemoryIfNecessary, checkpointOrRollbackInMemoryIfNecessary, hflag]
      · rw [heq]
        refine represents_ofLayout (f := f.replayPages.clearWAL) ?_ ?_ fun p _ ↦ hnone p
        · rw [PagedFile.clearWAL_pages, hview]
          exact h.disk
        · exact fun p hp ↦ Nat.lt_of_lt_of_le (h.old_lt p hp) h.le_numPages
  | true =>
      obtain ⟨g, hcheckpoint, hg⟩ := h.checkpoint_eq_ok hf hflag
      have hnone : ∀ p, g.version p = none := by
        intro p
        rw [hg, h.checkpoint_version hf]
        split
        · rfl
        next hnot => exact not_not.mp fun hver ↦ hnot (hown p hver)
      have hnum : g.numPages = f.numPages := by rw [hg, PagedFile.clearAll_numPages]; rfl
      have hlayout : Layout g.clearWAL.pages a.headerPageIdx (pips ++ a.pipPageIdxsOfInsertedPIPs)
          (aps ++ newAPs) working := by
        rw [PagedFile.clearWAL_pages, hg, PagedFile.clearAll_pages, hpages]
        exact h.seen
      have hlt : ∀ p ∈ a.headerPageIdx :: (pips ++ a.pipPageIdxsOfInsertedPIPs ++ (aps ++ newAPs)),
          p < g.clearWAL.numPages := by
        intro p hp
        rw [PagedFile.clearWAL_numPages, hnum]
        by_contra hle
        exact h.numPages_not_mem hf (Nat.le_of_not_lt hle) hp
      have hrepresents := represents_ofLayout hlayout hlt fun p _ ↦ hnone p
      rw [PagedFile.clearWAL_numPages, hnum] at hrepresents
      exact ⟨_, g, _, _, hcheckpoint, hnum, hnone, hrepresents⟩

end InMemDiskArray

end Graphflow.Storage
