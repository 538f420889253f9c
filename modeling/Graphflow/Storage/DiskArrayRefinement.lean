import Graphflow.Storage.DiskArrayCheckpoint

/-!
# A disk array is a pair of arrays

As long as nothing that is written to a WAL page is lost, an array answers every call as a pair of
ordinary arrays does, the committed and the working one.  A commit is a checkpoint behind the
copying of the logged pages; after a checkpoint and after a rollback the WAL is cleared.
-/

namespace Graphflow.Storage

/-- The calls on one array.  `junk` are the contents of the frames in which the pages that a
`pushBack` adds are built. -/
inductive ArrayOp
  | update (idx val : ℕ)
  | pushBack (val : ℕ) (junk : ℕ → Page)
  | get (idx : ℕ) (trxType : TransactionType)
  | getNumElements (trxType : TransactionType)
  | checkpoint
  | rollback

/-- What a call returns or throws. -/
abbrev Answer := Except Fault (Option ℕ)

structure ArrayPair where
  committed : List ℕ
  working : List ℕ

namespace ArrayPair

/-- The array that a transaction of the given type reads. -/
def visible (s : ArrayPair) : TransactionType → List ℕ
  | .readOnly => s.committed
  | .write => s.working

/-- The operations on a pair of arrays.  The message for a read that is out of range names the
committed length for both types of transactions. -/
def perform (s : ArrayPair) : ArrayOp → Answer × ArrayPair
  | .update idx val =>
      if idx < s.working.length then (.ok none, { s with working := s.working.set idx val })
      else (.error (.exception (InMemDiskArray.updateOutOfRangeMessage idx s.working.length)), s)
  | .pushBack val _ => (.ok none, { s with working := s.working ++ [val] })
  | .get idx trxType =>
      match (s.visible trxType)[idx]? with
      | some val => (.ok (some val), s)
      | none => (.error (.exception
          (InMemDiskArray.getOutOfRangeMessage idx s.committed.length trxType)), s)
  | .getNumElements trxType => (.ok (some (s.visible trxType).length), s)
  | .checkpoint => (.ok none, ⟨s.working, s.working⟩)
  | .rollback => (.ok none, ⟨s.committed, s.committed⟩)

end ArrayPair

namespace InMemDiskArray

variable {a : InMemDiskArray} {f : PagedFile} {n₀ : ℕ}
  {pips aps newAPs committed working : List ℕ}

/-- The answer of a call that returns a new state, or leaves the state when it throws. -/
def settle (s : InMemDiskArray × PagedFile) :
    Except Fault (InMemDiskArray × PagedFile) → Answer × (InMemDiskArray × PagedFile)
  | .ok s' => (.ok none, s')
  | .error fault => (.error fault, s)

def perform (s : InMemDiskArray × PagedFile) : ArrayOp → Answer × (InMemDiskArray × PagedFile)
  | .update idx val =>
      let (result, a, f) := s.1.update s.2 idx val
      (result.map fun _ ↦ none, a, f)
  | .pushBack val junk => settle s (s.1.pushBack s.2 val junk)
  | .get idx trxType => ((s.1.get s.2 idx trxType).map some, s)
  | .getNumElements trxType => ((s.1.getNumElements s.2 trxType).map some, s)
  | .checkpoint => settle s do
      let (a, f) ← s.1.checkpointInMemoryIfNecessary s.2.replayPages
      return (a, f.clearWAL)
  | .rollback => settle s do
      let (a, f) ← s.1.rollbackInMemoryIfNecessary s.2
      return (a, f.clearWAL)

/-! ## Loading -/

theorem readPIPs_eq_ok {pages : ℕ → Page} {rest : List ℕ} :
    ∀ fuel, rest.length ≤ fuel → PIPChain pages rest →
      readPIPs pages fuel rest.head? = .ok (rest.map fun p ↦ ⟨p, (pages p).asPIP⟩) := by
  induction rest with
  | nil => intro fuel _ _; cases fuel <;> rfl
  | cons p rest ih =>
      intro fuel hfuel hchain
      obtain ⟨fuel, rfl⟩ : ∃ k, fuel = k + 1 := ⟨fuel - 1, by simp at hfuel; omega⟩
      have hnext : (pages p).asPIP.nextPipPageIdx = rest.head? := by
        simpa [List.head?_eq_getElem?] using hchain 0 p rfl
      have hrest : PIPChain pages rest := by
        intro k q hk
        simpa using hchain (k + 1) q (by simpa using hk)
      have hread := ih fuel (by simpa using hfuel) hrest
      simp [readPIPs, hnext, hread]

/-- Loading finds the array that the pages on disk hold. -/
theorem load_eq_ok {headerPageIdx : ℕ} {xs : List ℕ}
    (hlayout : Layout f.pages headerPageIdx pips aps xs)
    (hlt : ∀ p ∈ headerPageIdx :: (pips ++ aps), p < f.numPages) :
    load f headerPageIdx = .ok (ofLayout f headerPageIdx pips aps) := by
  have hlength : pips.length ≤ f.numPages := by
    have hsub : pips ⊆ List.range f.numPages :=
      fun p hp ↦ List.mem_range.mpr (hlt p (by simp [hp]))
    simpa using (hlayout.nodup_pips.subperm hsub).length_le
  have hpips := readPIPs_eq_ok f.numPages hlength hlayout.chain
  have haps : ∀ i ∈ List.range aps.length, getAPPageIdx ⟨headerPageIdx,
      (f.pages headerPageIdx).asHeader, pips.map fun p ↦ ⟨p, (f.pages p).asPIP⟩, [], false, [], []⟩
        f i .readOnly = .ok (aps.getD i 0) := by
    intro i hi
    have hget := List.getElem?_eq_getElem (List.mem_range.mp hi)
    obtain ⟨q, hq, hentry⟩ := hlayout.entries i _ hget
    simp [getAPPageIdx, numPageIdxsPerPIP, hq, hentry, List.getD, hget]
  have hrange : (List.range aps.length).map (aps.getD · 0) = aps := by
    refine List.ext_getElem (by simp) fun i hi _ ↦ ?_
    simp only [List.length_map, List.length_range] at hi
    simp [hi]
  have hmap := Lib.mapM_eq_ok haps
  rw [hrange] at hmap
  have hnumAPs : (f.pages headerPageIdx).asHeader.numAPs = aps.length := by rw [hlayout.header]
  have hfirst : (f.pages headerPageIdx).asHeader.firstPIPPageIdx = pips.head? := by
    rw [hlayout.header]
  simp only [load, hfirst, hpips, Lib.ok_bind, hnumAPs, hmap, Lib.pure_eq_ok]
  rfl

/-! ## The simulation -/

/-- The array and its file stand for the pair.  The array owns every page that has a version and
every page that the transaction has added. -/
def Simulates (s : InMemDiskArray × PagedFile) (t : ArrayPair) : Prop :=
  s.2.WellLogged ∧ ∃ n₀ pips aps newAPs,
    Represents s.1 s.2 n₀ pips aps newAPs t.committed t.working ∧
    (∀ p, s.2.version p ≠ none → p ∈ s.1.oldPages pips aps ++ s.1.newPages newAPs) ∧
    ∀ p, n₀ ≤ p → p < s.2.numPages → p ∈ s.1.newPages newAPs

theorem simulates_update (hsim : Simulates (a, f) ⟨committed, working⟩) (idx val : ℕ) :
    (perform (a, f) (.update idx val)).1 =
        (ArrayPair.perform ⟨committed, working⟩ (.update idx val)).1 ∧
      Simulates (perform (a, f) (.update idx val)).2
        (ArrayPair.perform ⟨committed, working⟩ (.update idx val)).2 := by
  obtain ⟨hf, n₀, pips, aps, newAPs, h, hown, hadded⟩ := hsim
  simp only at hf h hown hadded
  rcases Nat.lt_or_ge idx working.length with hlt | hge
  · obtain ⟨f', hupdate, h', ht, hnum⟩ := h.update_eq_ok (v := val) hf hlt
    simp only [perform, ArrayPair.perform, hupdate, hlt, if_true]
    refine ⟨rfl, ht.wellLogged, n₀, pips, aps, newAPs, h', ?_, ?_⟩
    · intro p hver
      by_contra hnot
      have hplt := ht.wellLogged.lt_numPages hver
      rw [hnum] at hplt
      exact hnot (hown p (by rwa [ht.version_eq p hplt hnot] at hver))
    · intro p hle hplt
      exact hadded p hle (by rwa [hnum] at hplt)
  · simp only [perform, ArrayPair.perform, h.update_out_of_range hf hge, Nat.not_lt.mpr hge,
      if_false]
    exact ⟨rfl, hf, n₀, pips, aps, newAPs, h.touched, hown, hadded⟩

theorem simulates_pushBack (hsim : Simulates (a, f) ⟨committed, working⟩) (val : ℕ)
    (junk : ℕ → Page) :
    (perform (a, f) (.pushBack val junk)).1 = .ok none ∧
      Simulates (perform (a, f) (.pushBack val junk)).2 ⟨committed, working ++ [val]⟩ := by
  obtain ⟨hf, n₀, pips, aps, newAPs, h, hown, hadded⟩ := hsim
  simp only at hf h hown hadded
  obtain ⟨a', f', newAPs', hpush, h', ht, hheader, -, hnew⟩ := h.pushBack_eq_ok hf val junk
  simp only [perform, hpush, settle]
  have hold : a'.oldPages pips aps = a.oldPages pips aps := by simp [oldPages, hheader]
  refine ⟨trivial, ht.wellLogged, n₀, pips, aps, newAPs', h', ?_, ?_⟩
  · intro p hver
    rw [hold, List.mem_append, hnew]
    rcases Nat.lt_or_ge p f.numPages with hlt | hge
    · by_contra hnot
      have hnot' : p ∉ a.oldPages pips aps ++ a.newPages newAPs := by
        rw [List.mem_append]
        tauto
      rw [ht.version_eq p hlt hnot'] at hver
      exact hnot' (hown p hver)
    · exact .inr (.inr ⟨hge, ht.wellLogged.lt_numPages hver⟩)
  · intro p hle hlt
    rw [hnew]
    rcases Nat.lt_or_ge p f.numPages with hlt' | hge
    · exact .inl (hadded p hle hlt')
    · exact .inr ⟨hge, hlt⟩

theorem simulates_get (hsim : Simulates (a, f) ⟨committed, working⟩) (idx : ℕ)
    (trxType : TransactionType) :
    (a.get f idx trxType).map some =
      (ArrayPair.perform ⟨committed, working⟩ (.get idx trxType)).1 := by
  obtain ⟨hf, n₀, pips, aps, newAPs, h, -⟩ := hsim
  simp only at hf h
  cases trxType with
  | readOnly =>
      rcases Nat.lt_or_ge idx committed.length with hlt | hge
      · simp [ArrayPair.perform, ArrayPair.visible, h.get_readOnly hlt, hlt, Except.map]
      · simp [ArrayPair.perform, ArrayPair.visible, h.get_readOnly_out_of_range hge,
          hge, Except.map]
  | write =>
      rcases Nat.lt_or_ge idx working.length with hlt | hge
      · simp [ArrayPair.perform, ArrayPair.visible, h.get_write hf hlt, hlt, Except.map]
      · simp [ArrayPair.perform, ArrayPair.visible, h.get_write_out_of_range hf hge,
          hge, Except.map]

theorem simulates_getNumElements (hsim : Simulates (a, f) ⟨committed, working⟩)
    (trxType : TransactionType) :
    a.getNumElements f trxType = .ok (ArrayPair.visible ⟨committed, working⟩ trxType).length := by
  obtain ⟨hf, n₀, pips, aps, newAPs, h, -⟩ := hsim
  simp only at hf h
  cases trxType with
  | readOnly => simp [getNumElements, readHeader, h.header_eq, ArrayPair.visible]
  | write => exact h.getNumElements_write hf

theorem simulates_checkpoint (hsim : Simulates (a, f) ⟨committed, working⟩) :
    (perform (a, f) .checkpoint).1 = .ok none ∧
      Simulates (perform (a, f) .checkpoint).2 ⟨working, working⟩ ∧
      (perform (a, f) .checkpoint).2.2.numPages ≤ f.numPages ∧
      (perform (a, f) .checkpoint).2.2.records = [] := by
  obtain ⟨hf, n₀, pips, aps, newAPs, h, hown, -⟩ := hsim
  simp only at hf h hown
  obtain ⟨a', g, pips', aps', hcheckpoint, hnum, hnone, h'⟩ := h.checkpoint_spec hf hown
  simp only [perform, hcheckpoint, Lib.ok_bind, Lib.pure_eq_ok, settle]
  refine ⟨trivial, ⟨PagedFile.wellLogged_clearWAL hnone, _, pips', aps', [], h', ?_, ?_⟩,
    hnum.le, rfl⟩
  · intro p hver
    exact absurd (hnone p) hver
  · intro p hle hlt
    rw [PagedFile.clearWAL_numPages, hnum] at hlt
    omega

theorem Represents.numPages_after_rollback
    (h : Represents a f n₀ pips aps newAPs committed working)
    (hadded : ∀ p, n₀ ≤ p → p < f.numPages → p ∈ a.newPages newAPs) :
    newAPs.foldl min f.numPages = n₀ := by
  apply le_antisymm
  · rcases Nat.eq_or_lt_of_le h.le_numPages with heq | hlt
    · exact (foldl_min_le newAPs _).trans heq.ge
    · exact foldl_min_le_of_mem _ (h.mem_newAPs (hadded n₀ le_rfl hlt))
  · exact le_foldl_min h.le_numPages fun p hp ↦ h.le_new p (List.mem_append_right _ hp)

theorem simulates_rollback (hsim : Simulates (a, f) ⟨committed, working⟩) :
    (perform (a, f) .rollback).1 = .ok none ∧
      Simulates (perform (a, f) .rollback).2 ⟨committed, committed⟩ ∧
      (perform (a, f) .rollback).2.2.numPages ≤ f.numPages ∧
      (perform (a, f) .rollback).2.2.records = [] := by
  obtain ⟨hf, n₀, pips, aps, newAPs, h, hown, hadded⟩ := hsim
  simp only at hf h hown hadded
  obtain ⟨g, hrollback, hr⟩ := h.rollback_spec hf (Intact.refl h) hf.resized
    fun q hq ↦ h.pip_lt hf (List.mem_append_right _ hq)
  have hnum : g.numPages = n₀ := hr.numPages_eq.trans (h.numPages_after_rollback hadded)
  have hnone : ∀ p, g.version p = none := by
    intro p
    rw [hr.version_eq]
    split
    next hkept =>
      by_contra hver
      exact hkept.2 ⟨hown p hver, hf.lt_numPages hver⟩
    next => rfl
  simp only [perform, hrollback, Lib.ok_bind, Lib.pure_eq_ok, settle]
  have hlayout : Layout g.clearWAL.pages a.headerPageIdx pips aps committed := by
    rw [PagedFile.clearWAL_pages, hr.pages_eq]
    exact h.disk
  have hlt : ∀ p ∈ a.headerPageIdx :: (pips ++ aps), p < g.clearWAL.numPages := by
    intro p hp
    rw [PagedFile.clearWAL_numPages, hnum]
    exact h.old_lt p hp
  have hrepresents := represents_ofLayout hlayout hlt fun p _ ↦ hnone p
  have heq : a.rolledBack = ofLayout g.clearWAL a.headerPageIdx pips aps := by
    rw [h.rolledBack_eq]
    simp [ofLayout, hr.pages_eq]
  rw [heq]
  refine ⟨trivial, ⟨PagedFile.wellLogged_clearWAL hnone, _, pips, aps, [], hrepresents, ?_, ?_⟩,
    hnum.trans_le h.le_numPages, rfl⟩
  · intro p hver
    exact absurd (hnone p) hver
  · intro p hle hlt
    exact absurd hlt (Nat.not_lt.mpr hle)

theorem simulates_perform (s : InMemDiskArray × PagedFile) (t : ArrayPair) (op : ArrayOp)
    (hsim : Simulates s t) :
    (perform s op).1 = (t.perform op).1 ∧ Simulates (perform s op).2 (t.perform op).2 := by
  obtain ⟨a, f⟩ := s
  obtain ⟨committed, working⟩ := t
  cases op with
  | update idx val => exact simulates_update hsim idx val
  | pushBack val junk => exact simulates_pushBack hsim val junk
  | get idx trxType =>
      refine ⟨simulates_get hsim idx trxType, ?_⟩
      simp only [perform, ArrayPair.perform]
      split <;> exact hsim
  | getNumElements trxType =>
      refine ⟨?_, hsim⟩
      simp only [perform, simulates_getNumElements hsim, ArrayPair.perform]
      rfl
  | checkpoint => exact ⟨(simulates_checkpoint hsim).1, (simulates_checkpoint hsim).2.1⟩
  | rollback => exact ⟨(simulates_rollback hsim).1, (simulates_rollback hsim).2.1⟩

/-- An array that has been loaded stands for two copies of what is on disk. -/
theorem simulates_ofLayout {headerPageIdx : ℕ} {xs : List ℕ}
    (hlayout : Layout f.pages headerPageIdx pips aps xs)
    (hlt : ∀ p ∈ headerPageIdx :: (pips ++ aps), p < f.numPages)
    (hnone : ∀ p, f.version p = none) (hrecords : f.records = []) :
    Simulates (ofLayout f headerPageIdx pips aps, f) ⟨xs, xs⟩ := by
  have hf := PagedFile.wellLogged_of_no_version hnone hrecords
  refine ⟨hf, f.numPages, pips, aps, [], represents_ofLayout hlayout hlt fun p _ ↦ hnone p, ?_, ?_⟩
  · intro p hver
    exact absurd (hnone p) hver
  · intro p hle hp
    exact absurd hp (Nat.not_lt.mpr hle)

end InMemDiskArray

end Graphflow.Storage
