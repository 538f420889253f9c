import Graphflow.Storage.DiskArrayCheckpoint

/-!
# Arrays that share a file

Several arrays live in one file, each behind its own header page, and add their pages to it in any
order.  Between their operations each array owns its pages alone.  The arrays are rolled back one
after the other; the rollback of one truncates the file under those that are still to come.
-/

namespace Graphflow.Storage

/-- The arrays of a file, by name. -/
structure SharedArrays (ι : Type) where
  arrays : ι → InMemDiskArray
  file : PagedFile

/-- The calls of a write transaction on one of the arrays. -/
inductive SharedOp (ι : Type)
  | update (array : ι) (idx val : ℕ)
  | pushBack (array : ι) (val : ℕ) (junk : ℕ → Page)

namespace SharedArrays

open InMemDiskArray

variable {ι : Type} [DecidableEq ι] {s s' : SharedArrays ι} {n₀ : ℕ}
  {pips aps newAPs committed working : ι → List ℕ}

/-- A call that throws leaves what it has changed until then. -/
def perform (s : SharedArrays ι) : SharedOp ι → SharedArrays ι
  | .update i idx val =>
      let (_, a, f) := (s.arrays i).update s.file idx val
      ⟨Function.update s.arrays i a, f⟩
  | .pushBack i val junk =>
      match (s.arrays i).pushBack s.file val junk with
      | .ok (a, f) => ⟨Function.update s.arrays i a, f⟩
      | .error _ => s

def rollbackArray (s : SharedArrays ι) (i : ι) : Except Fault (SharedArrays ι) := do
  let (a, f) ← (s.arrays i).rollbackInMemoryIfNecessary s.file
  return ⟨Function.update s.arrays i a, f⟩

/-- The arrays are rolled back in the given order. -/
def rollbackAll (s : SharedArrays ι) (order : List ι) : Except Fault (SharedArrays ι) :=
  order.foldlM rollbackArray s

/-- All pages of an array. -/
def ownPages (s : SharedArrays ι) (pips aps newAPs : ι → List ℕ) (i : ι) : List ℕ :=
  (s.arrays i).oldPages (pips i) (aps i) ++ (s.arrays i).newPages (newAPs i)

/-- Each array represents its pair of arrays, and each page that has a version or has been added by
the transaction belongs to exactly one of them. -/
structure Shares (s : SharedArrays ι) (n₀ : ℕ)
    (pips aps newAPs committed working : ι → List ℕ) : Prop where
  wellLogged : s.file.WellLogged
  represents : ∀ i, InMemDiskArray.Represents (s.arrays i) s.file n₀ (pips i) (aps i) (newAPs i)
    (committed i) (working i)
  disjoint : ∀ i j p, p ∈ s.ownPages pips aps newAPs i → p ∈ s.ownPages pips aps newAPs j → i = j
  versioned : ∀ p, s.file.version p ≠ none → ∃ i, p ∈ s.ownPages pips aps newAPs i
  added : ∀ p, n₀ ≤ p → p < s.file.numPages → ∃ i, p ∈ (s.arrays i).newPages (newAPs i)

/-! ## Operations of the write transaction -/

/-- What a step of one array has to establish. -/
theorem Shares.step {i : ι} {a' : InMemDiskArray} {f' : PagedFile} {newAPs' working' : List ℕ}
    (h : Shares s n₀ pips aps newAPs committed working)
    (ht : Touches s.file.numPages (s.ownPages pips aps newAPs i) s.file f')
    (hr : InMemDiskArray.Represents a' f' n₀ (pips i) (aps i) newAPs' (committed i) working')
    (hheader : a'.headerPageIdx = (s.arrays i).headerPageIdx)
    (hnew : ∀ p, p ∈ a'.newPages newAPs' ↔
      p ∈ (s.arrays i).newPages (newAPs i) ∨ s.file.numPages ≤ p ∧ p < f'.numPages) :
    Shares ⟨Function.update s.arrays i a', f'⟩ n₀ pips aps (Function.update newAPs i newAPs')
      committed (Function.update working i working') := by
  have hown : ∀ j p, p ∈ ownPages ⟨Function.update s.arrays i a', f'⟩ pips aps
      (Function.update newAPs i newAPs') j ↔ p ∈ s.ownPages pips aps newAPs j ∨
        j = i ∧ s.file.numPages ≤ p ∧ p < f'.numPages := by
    intro j p
    by_cases hji : j = i
    · subst hji
      have hold : a'.oldPages (pips j) (aps j) = (s.arrays j).oldPages (pips j) (aps j) := by
        simp [oldPages, hheader]
      simp only [ownPages, Function.update_self, List.mem_append, hold, hnew]
      tauto
    · simp [ownPages, hji]
  have hlt : ∀ j p, p ∈ s.ownPages pips aps newAPs j → p < s.file.numPages :=
    fun j p hp ↦ (h.represents j).ownPages_lt h.wellLogged hp
  refine ⟨ht.wellLogged, fun j ↦ ?_, fun j k p hj hk ↦ ?_, fun p hver ↦ ?_, fun p hle hp ↦ ?_⟩
  · by_cases hji : j = i
    · subst hji
      simpa using hr
    · simp only [Function.update_of_ne hji]
      refine (h.represents j).frame h.wellLogged ht fun p hj hi ↦ ?_
      exact hji (h.disjoint j i p hj hi)
  · rw [hown] at hj hk
    rcases hj with hj | ⟨rfl, hle, -⟩ <;> rcases hk with hk | ⟨rfl, hle', -⟩
    · exact h.disjoint j k p hj hk
    · exact absurd (hlt j p hj) (Nat.not_lt.mpr hle')
    · exact absurd (hlt k p hk) (Nat.not_lt.mpr hle)
    · rfl
  · simp only [hown]
    rcases Nat.lt_or_ge p s.file.numPages with hplt | hge
    · by_cases hmem : p ∈ s.ownPages pips aps newAPs i
      · exact ⟨i, .inl hmem⟩
      · rw [ht.version_eq p hplt hmem] at hver
        obtain ⟨j, hj⟩ := h.versioned p hver
        exact ⟨j, .inl hj⟩
    · exact ⟨i, .inr ⟨rfl, hge, ht.wellLogged.lt_numPages hver⟩⟩
  · rcases Nat.lt_or_ge p s.file.numPages with hplt | hge
    · obtain ⟨j, hj⟩ := h.added p hle hplt
      refine ⟨j, ?_⟩
      by_cases hji : j = i
      · subst hji
        simpa [hnew] using Or.inl hj
      · simpa [Function.update_of_ne hji] using hj
    · refine ⟨i, ?_⟩
      simp only [Function.update_self, hnew]
      exact .inr ⟨hge, hp⟩

/-- What a write transaction leaves as it is. -/
def SameDisk (s s' : SharedArrays ι) : Prop :=
  s'.file.pages = s.file.pages ∧ ∀ i, (s'.arrays i).headerPageIdx = (s.arrays i).headerPageIdx

omit [DecidableEq ι] in
theorem SameDisk.trans {s'' : SharedArrays ι} (h : SameDisk s s') (h' : SameDisk s' s'') :
    SameDisk s s'' :=
  ⟨h'.1.trans h.1, fun i ↦ (h'.2 i).trans (h.2 i)⟩

theorem sameDisk_update {i : ι} {a' : InMemDiskArray} {f' : PagedFile}
    (hpages : f'.pages = s.file.pages) (hheader : a'.headerPageIdx = (s.arrays i).headerPageIdx) :
    SameDisk s ⟨Function.update s.arrays i a', f'⟩ := by
  refine ⟨hpages, fun j ↦ ?_⟩
  by_cases hji : j = i
  · subst hji
    simpa using hheader
  · simp [hji]

theorem Shares.perform (h : Shares s n₀ pips aps newAPs committed working) (op : SharedOp ι) :
    SameDisk s (s.perform op) ∧
      ∃ newAPs' working', Shares (s.perform op) n₀ pips aps newAPs' committed working' := by
  cases op with
  | update i idx val =>
      have hnew : ∀ p, p ∈ (s.arrays i).touched.newPages (newAPs i) ↔
          p ∈ (s.arrays i).newPages (newAPs i) ∨ s.file.numPages ≤ p ∧ p < s.file.numPages := by
        intro p
        have hno : ¬(s.file.numPages ≤ p ∧ p < s.file.numPages) := by omega
        simp [hno, newPages, touched]
      rcases Nat.lt_or_ge idx (working i).length with hlt | hge
      · obtain ⟨f', hupdate, hr, ht, hnum⟩ :=
          (h.represents i).update_eq_ok (v := val) h.wellLogged hlt
        simp only [SharedArrays.perform, hupdate]
        exact ⟨sameDisk_update ht.pages_eq rfl, _, _, h.step ht hr rfl (hnum ▸ hnew)⟩
      · simp only [SharedArrays.perform, (h.represents i).update_out_of_range h.wellLogged hge]
        exact ⟨sameDisk_update rfl rfl, _, _, h.step (Touches.refl h.wellLogged _ _)
          (h.represents i).touched rfl hnew⟩
  | pushBack i val junk =>
      obtain ⟨a', f', newAPs', hpush, hr, ht, hheader, -, hnew⟩ :=
        (h.represents i).pushBack_eq_ok h.wellLogged val junk
      simp only [SharedArrays.perform, hpush]
      exact ⟨sameDisk_update ht.pages_eq hheader, _, _, h.step ht hr hheader hnew⟩

/-- Any interleaving of calls keeps the ownership of the pages. -/
theorem Shares.run (h : Shares s n₀ pips aps newAPs committed working)
    (ops : List (SharedOp ι)) :
    SameDisk s (ops.foldl SharedArrays.perform s) ∧ ∃ newAPs' working',
      Shares (ops.foldl SharedArrays.perform s) n₀ pips aps newAPs' committed working' := by
  induction ops generalizing s newAPs working with
  | nil => exact ⟨⟨rfl, fun _ ↦ rfl⟩, newAPs, working, h⟩
  | cons op ops ih =>
      obtain ⟨hdisk, newAPs', working', h'⟩ := h.perform op
      obtain ⟨hdisk', hrun⟩ := ih h'
      exact ⟨hdisk.trans hdisk', hrun⟩

/-! ## Rolling back one array after the other -/

/-- The number of pages when it is the turn of array `i`, for a file that has `n` pages. -/
def limit (newAPs : ι → List ℕ) : List ι → ℕ → ι → ℕ
  | [], n, _ => n
  | j :: order, n, i => if i = j then n else limit newAPs order ((newAPs j).foldl min n) i

theorem le_limit {order : List ι} {n : ℕ} (hn : n₀ ≤ n) (hnew : ∀ j, ∀ p ∈ newAPs j, n₀ ≤ p)
    (i : ι) : n₀ ≤ limit newAPs order n i := by
  induction order generalizing n with
  | nil => exact hn
  | cons j order ih =>
      rw [limit]
      split
      · exact hn
      · exact ih (le_foldl_min hn (hnew j))

/-- What holds of the file while some arrays are still to be rolled back. -/
structure Partly (s : SharedArrays ι) (n₀ : ℕ) (pips : ι → List ℕ) (order : List ι)
    (g : PagedFile) : Prop where
  intact : ∀ i ∈ order, Intact (s.arrays i) n₀ (pips i) s.file g
  resized : g.Resized
  pages_eq : g.pages = s.file.pages

omit [DecidableEq ι] in
theorem Shares.partly (h : Shares s n₀ pips aps newAPs committed working) (order : List ι) :
    Partly s n₀ pips order s.file :=
  ⟨fun i _ ↦ Intact.refl (h.represents i), h.wellLogged.resized, rfl⟩

omit [DecidableEq ι] in
/-- The rollback of one array leaves what the others need, as far as it leaves the pages. -/
theorem Shares.partly_tail (h : Shares s n₀ pips aps newAPs committed working) {i : ι}
    {order : List ι} {g g' : PagedFile} (hg : Partly s n₀ pips (i :: order) g)
    (hnodup : (i :: order).Nodup)
    (hr : RollsBack (s.ownPages pips aps newAPs i) (newAPs i) g g') :
    Partly s n₀ pips order g' := by
  refine ⟨fun j hj ↦ ?_, hr.resized, hr.pages_eq.trans hg.pages_eq⟩
  have hi := hg.intact j (List.mem_cons_of_mem _ hj)
  have hji : j ≠ i := by
    rintro rfl
    exact (List.nodup_cons.mp hnodup).1 hj
  refine ⟨hr.walPages_eq.trans hi.walPages_eq, ?_, fun p hp hlt ↦ ?_, fun p hp ↦ ?_⟩
  · rw [hr.numPages_eq]
    exact le_foldl_min hi.le_numPages fun p hp ↦
      (h.represents i).le_new p (List.mem_append_right _ hp)
  · have hmem : p ∈ s.ownPages pips aps newAPs j := by
      simp only [ownPages, oldPages, newPages, structurePages, List.mem_cons,
        List.mem_append] at hp ⊢
      tauto
    have hnot : p ∉ s.ownPages pips aps newAPs i := fun hi ↦ hji (h.disjoint j i p hmem hi)
    rw [hr.version_eq, if_pos ⟨VersionedFileHandle.div_lt_numPageGroups hlt, by simp [hnot]⟩]
    exact hi.version_eq p hp (Nat.lt_of_lt_of_le hlt hr.numPages_le)
  · rw [hr.version_eq, hi.version_eq_none p hp, ite_self]

/-- The first of the rollbacks when the PIPs it dereferences exist. -/
theorem Shares.rollbackArray_eq_ok (h : Shares s n₀ pips aps newAPs committed working)
    {t : SharedArrays ι} {i : ι} {order : List ι} (hg : Partly s n₀ pips (i :: order) t.file)
    (harray : t.arrays i = s.arrays i)
    (hpips : ∀ q ∈ (s.arrays i).pipPageIdxsOfInsertedPIPs, q < t.file.numPages) :
    ∃ g, t.rollbackArray i = .ok ⟨Function.update t.arrays i (s.arrays i).rolledBack, g⟩ ∧
      RollsBack (s.ownPages pips aps newAPs i) (newAPs i) t.file g := by
  obtain ⟨g, hrollback, hr⟩ := (h.represents i).rollback_spec h.wellLogged
    (hg.intact i List.mem_cons_self) hg.resized hpips
  exact ⟨g, by simp [rollbackArray, harray, hrollback], hr⟩

/-- The arrays are rolled back when each PIP exists at the turn of its array.  A page that has been
truncated away before the turn of its array keeps its version, unless its page group is dropped. -/
theorem Shares.rollbackAll_eq_ok (h : Shares s n₀ pips aps newAPs committed working)
    {t : SharedArrays ι} {order : List ι} (hnodup : order.Nodup)
    (hg : Partly s n₀ pips order t.file) (harrays : ∀ i ∈ order, t.arrays i = s.arrays i)
    (hpips : ∀ i ∈ order, ∀ q ∈ (s.arrays i).pipPageIdxsOfInsertedPIPs,
      q < limit newAPs order t.file.numPages i) :
    ∃ t', t.rollbackAll order = .ok t' ∧ t'.file.pages = t.file.pages ∧
      t'.file.numPages = (order.flatMap newAPs).foldl min t.file.numPages ∧
      (∀ i, t'.arrays i = if i ∈ order then (s.arrays i).rolledBack else t.arrays i) ∧
      ∀ p, t'.file.version p =
        if p / pageGroupSize < numPageGroups t'.file.numPages ∧ ¬(∃ i ∈ order,
          p ∈ s.ownPages pips aps newAPs i ∧ p < limit newAPs order t.file.numPages i) then
          t.file.version p else none := by
  induction order generalizing t with
  | nil =>
      refine ⟨t, rfl, rfl, rfl, by simp, fun p ↦ ?_⟩
      by_cases hgroup : p / pageGroupSize < numPageGroups t.file.numPages
      · simp [hgroup]
      · simp [hgroup, hg.resized p (Nat.le_of_not_lt hgroup)]
  | cons i order ih =>
      obtain ⟨hnot, hnodup'⟩ := List.nodup_cons.mp hnodup
      have hne : ∀ j ∈ order, j ≠ i := by
        rintro j hj rfl
        exact hnot hj
      have hlimit : ∀ j ∈ order, limit newAPs (i :: order) t.file.numPages j =
          limit newAPs order ((newAPs i).foldl min t.file.numPages) j := by
        intro j hj
        simp [limit, hne j hj]
      obtain ⟨g, hfirst, hr⟩ := h.rollbackArray_eq_ok hg (harrays i List.mem_cons_self)
        (by simpa [limit] using hpips i List.mem_cons_self)
      have hg' := h.partly_tail hg hnodup hr
      obtain ⟨t', hrest, hpages, hnum, harrays', hversion⟩ :=
        ih (t := ⟨Function.update t.arrays i (s.arrays i).rolledBack, g⟩) hnodup' hg'
          (fun j hj ↦ (Function.update_of_ne (hne j hj) _ _).trans
            (harrays j (List.mem_cons_of_mem _ hj)))
          (fun j hj q hq ↦ by
            rw [hr.numPages_eq, ← hlimit j hj]
            exact hpips j (List.mem_cons_of_mem _ hj) q hq)
      refine ⟨t', ?_, hpages.trans hr.pages_eq, ?_, fun j ↦ ?_, fun p ↦ ?_⟩
      · rw [rollbackAll, List.foldlM_cons, hfirst]
        exact hrest
      · rw [hnum, hr.numPages_eq, List.flatMap_cons, List.foldl_append]
      · rw [harrays']
        by_cases hji : j = i
        · subst hji
          simp [hnot]
        · simp [hji]
      · have hreached : (∃ j ∈ i :: order, p ∈ s.ownPages pips aps newAPs j ∧
            p < limit newAPs (i :: order) t.file.numPages j) ↔
              (p ∈ s.ownPages pips aps newAPs i ∧ p < t.file.numPages) ∨
                ∃ j ∈ order, p ∈ s.ownPages pips aps newAPs j ∧
                  p < limit newAPs order g.numPages j := by
          simp only [List.mem_cons, or_and_right, exists_or, exists_eq_left, hr.numPages_eq]
          refine or_congr (by simp [limit]) (exists_congr fun j ↦ and_congr_right fun hj ↦ ?_)
          rw [hlimit j hj]
        have hle : t'.file.numPages ≤ g.numPages := by
          rw [hnum]
          exact foldl_min_le _ _
        have hmono := VersionedFileHandle.numPageGroups_mono hle
        rw [hversion, hr.version_eq]
        simp only [hreached]
        by_cases hgroup : p / pageGroupSize < numPageGroups t'.file.numPages
        · have hgroup' := Nat.lt_of_lt_of_le hgroup hmono
          simp only [hgroup, hgroup', true_and, not_or]
          grind
        · simp [hgroup]

/-- A PIP that has been truncated away before the turn of its array makes the rollback fail. -/
theorem Shares.rollbackAll_ne_ok (h : Shares s n₀ pips aps newAPs committed working)
    {t : SharedArrays ι} {order : List ι} (hnodup : order.Nodup)
    (hg : Partly s n₀ pips order t.file) (harrays : ∀ i ∈ order, t.arrays i = s.arrays i)
    {i : ι} (hi : i ∈ order) {q : ℕ} (hq : q ∈ (s.arrays i).pipPageIdxsOfInsertedPIPs)
    (hlost : limit newAPs order t.file.numPages i ≤ q) (t' : SharedArrays ι) :
    t.rollbackAll order ≠ .ok t' := by
  induction order generalizing t with
  | nil => simp at hi
  | cons j order ih =>
      obtain ⟨hnot, hnodup'⟩ := List.nodup_cons.mp hnodup
      by_cases hfirst : ∃ r ∈ (s.arrays j).pipPageIdxsOfInsertedPIPs, t.file.numPages ≤ r
      · obtain ⟨r, hr, hle⟩ := hfirst
        intro hok
        have hfail := (h.represents j).rollback_ne_ok h.wellLogged
          (hg.intact j List.mem_cons_self) hr hle
        cases hroll : (s.arrays j).rollbackInMemoryIfNecessary t.file with
        | error fault =>
            simp [rollbackAll, List.foldlM_cons, rollbackArray, harrays j List.mem_cons_self,
              hroll] at hok
        | ok r => exact hfail r hroll
      · have hpips : ∀ r ∈ (s.arrays j).pipPageIdxsOfInsertedPIPs, r < t.file.numPages := by
          intro r hr
          by_contra hge
          exact hfirst ⟨r, hr, Nat.le_of_not_lt hge⟩
        have hij : i ≠ j := by
          rintro rfl
          simp only [limit, if_true] at hlost
          exact hfirst ⟨q, hq, hlost⟩
        have hi' : i ∈ order := by simpa [hij] using hi
        obtain ⟨g, hstep, hr⟩ := h.rollbackArray_eq_ok hg (harrays j List.mem_cons_self) hpips
        rw [rollbackAll, List.foldlM_cons, hstep]
        refine ih (t := ⟨Function.update t.arrays j (s.arrays j).rolledBack, g⟩) hnodup'
          (h.partly_tail hg hnodup hr) (fun k hk ↦ ?_) hi' ?_
        · have hkj : k ≠ j := by
            rintro rfl
            exact hnot hk
          exact (Function.update_of_ne hkj _ _).trans (harrays k (List.mem_cons_of_mem _ hk))
        · simpa [limit, hij, hr.numPages_eq] using hlost

end SharedArrays

end Graphflow.Storage
