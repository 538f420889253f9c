import Graphflow.Lib.Transition
import Graphflow.Storage.ListsProgress

/-!
# The entries of the chunks

A chunk gets its entry with its first small list that is not empty.  If every commit that puts the
first nodes into a chunk writes such a list to it, each chunk has its entry whenever it is looked
for.
-/

namespace Graphflow.Storage

open Lib ListHeaders UnstructuredPropertyLists

variable {lists lists' : UnstructuredPropertyLists}
  {updatedLists done rest : List (ℕ × List UInt8)} {x : ℕ × List UInt8}

/-- Each chunk of the nodes has an entry. -/
def ChunksHaveEntries (lists : UnstructuredPropertyLists) : Prop :=
  getNumChunks lists.headers.working.length ≤ lists.chunkToPageListHeadIdxMap.working.length

instance : Decidable (ChunksHaveEntries lists) :=
  inferInstanceAs (Decidable (_ ≤ _))

/-- The nodes come in order, and a chunk that gets its first nodes gets a small list with elements
in the same commit. -/
structure OpensChunks (lists : UnstructuredPropertyLists)
    (updatedLists : List (ℕ × List UInt8)) : Prop where
  inOrder : InOrder lists.headers.committed.length updatedLists
  opened : ∀ x ∈ updatedLists, getNumChunks lists.headers.committed.length ≤ x.1 / listsChunkSize →
    ∃ y ∈ updatedLists, NeedsEntry lists y.1 y.2 ∧
      y.1 / listsChunkSize = x.1 / listsChunkSize

/-- A commit and its checkpoint. -/
def commit (lists : UnstructuredPropertyLists) (updatedLists : List (ℕ × List UInt8)) :
    Option UnstructuredPropertyLists :=
  match lists.prepareCommit updatedLists with
  | .ok lists' => some lists'.checkpoint
  | .error _ => none

theorem lt_getNumChunks_iff {c n : ℕ} : c < getNumChunks n ↔ c * listsChunkSize < n := by
  rw [getNumChunks]
  split <;> simp only [listsChunkSize] at * <;> omega

theorem ChunksHaveEntries.lt (h : ChunksHaveEntries lists) (hsynced : lists.checkpoint = lists)
    {c : ℕ} (hc : c < getNumChunks lists.headers.committed.length) :
    c < lists.chunkToPageListHeadIdxMap.committed.length := by
  unfold ChunksHaveEntries at h
  rw [← hsynced] at hc h ⊢
  exact hc.trans_le h

theorem ChunksHaveEntries.slidesWithEntries (h : ChunksHaveEntries lists)
    (hsynced : lists.checkpoint = lists) : SlidesWithEntries lists := by
  intro lists' n header hsame hheader hsmall
  have hlt := h.lt hsynced (lt_getNumChunks (List.getElem?_eq_some_iff.mp hheader).1)
  have hheaders : lists'.headers.committed = lists.headers.committed :=
    congrArg ListsView.headers hsame.view
  have hmap : lists'.chunkToPageListHeadIdxMap.committed =
      lists.chunkToPageListHeadIdxMap.committed := congrArg ListsView.chunkMap hsame.view
  refine (outcome_readList_of_small (hheaders ▸ hheader) hsmall).mono ?_ fun _ _ _ ↦ hlt
  rintro fault (hfault | hpage)
  · exact hfault
  · rw [hmap] at hpage
    exact absurd (onArrayPage_of_lt hlt) hpage

/-- A chunk of an updated node, or one in front of it, has or gets its entry. -/
theorem OpensChunks.getsEntry (h : OpensChunks lists updatedLists)
    (hstart : ChunksHaveEntries lists)
    (hsynced : lists.checkpoint = lists) {c : ℕ} (hx : x ∈ updatedLists)
    (hc : c * listsChunkSize ≤ x.1) : GetsEntry lists updatedLists c := by
  by_cases hold : c < getNumChunks lists.headers.committed.length
  · exact .inl (hstart.lt hsynced hold)
  · have hnew := Nat.le_of_not_lt hold
    rw [lt_getNumChunks_iff] at hold
    -- The first node of the chunk is new.
    have hfirst : c * listsChunkSize ∈ updatedLists.map Prod.fst := by
      rcases hc.eq_or_lt with heq | hlt
      · rw [heq]
        exact List.mem_map_of_mem hx
      · exact h.inOrder.consecutive x.1 (List.mem_map_of_mem hx) _ (Nat.le_of_not_lt hold) hlt
    obtain ⟨y, hy, hfst⟩ := List.mem_map.mp hfirst
    have hdiv : y.1 / listsChunkSize = c := by
      rw [hfst, Nat.mul_div_cancel _ (by decide)]
    obtain ⟨z, hz, hneeds, hchunk⟩ := h.opened y hy (by rw [hdiv]; exact hnew)
    exact .inr ⟨z, hz, hneeds, hchunk.trans hdiv⟩

theorem OpensChunks.not_wantsEntry (h : OpensChunks lists updatedLists)
    (hstart : ChunksHaveEntries lists) (hsynced : lists.checkpoint = lists) :
    ¬ WantsEntry lists updatedLists := by
  rintro ⟨x, hx, -, c, hc, hnot⟩
  refine hnot (h.getsEntry hstart hsynced hx ?_)
  exact (Nat.mul_le_mul_right _ hc.le).trans (Nat.div_mul_le_self ..)

/-- One commit. -/
theorem chunksHaveEntries_commit (h : OpensChunks lists updatedLists)
    (hstart : ChunksHaveEntries lists) (hsynced : lists.checkpoint = lists)
    (hcommit : commit lists updatedLists = some lists') :
    ChunksHaveEntries lists' ∧ lists'.checkpoint = lists' := by
  unfold commit at hcommit
  split at hcommit
  next prepared hrun =>
    obtain rfl := Option.some.inj hcommit
    refine ⟨?_, rfl⟩
    have hresult := (outcome_prepareCommit hsynced (hstart.slidesWithEntries hsynced)
      h.inOrder).result hrun
    rcases hresult with ⟨-, rfl⟩ | ⟨itr, rfl, hprogress, hnew⟩
    · exact hstart
    · show getNumChunks itr.lists.headers.working.length ≤
        itr.lists.chunkToPageListHeadIdxMap.working.length
      by_contra hgt
      have hlt := lt_getNumChunks_iff.mp (Nat.lt_of_not_le hgt)
      obtain ⟨c, hc⟩ : ∃ c, c = itr.lists.chunkToPageListHeadIdxMap.working.length := ⟨_, rfl⟩
      rw [← hc] at hlt
      have hentry : GetsEntry lists updatedLists c := by
        by_cases hold : c < getNumChunks lists.headers.committed.length
        · exact .inl (hstart.lt hsynced hold)
        · rw [lt_getNumChunks_iff] at hold
          obtain ⟨x, hx, hfst⟩ := List.mem_map.mp (hnew _ hlt (Nat.le_of_not_lt hold))
          exact h.getsEntry hstart hsynced hx hfst.ge
      rcases hentry with hold | ⟨y, hy, hneeds, hchunk⟩
      · have hchunks := hprogress.chunks
        omega
      · have hput := hprogress.put y hy hneeds
        omega
  next => exact absurd hcommit (by simp)

/-- In a run of commits that write a small list with elements to every chunk when they put its first
nodes into it, each chunk has an entry between the commits; no commit fails because there is none;
and within a commit, each chunk has one as long as there are no new nodes, and whenever a small
list with elements has been written. -/
theorem chunks_have_entries_along_commits {commits : List (List (ℕ × List UInt8))}
    (hstart : ChunksHaveEntries lists) (hsynced : lists.checkpoint = lists)
    (hmeets : MeetsAlong commit OpensChunks lists (commits ++ [updatedLists]))
    (hrun : run commit lists commits = some lists') :
    ChunksHaveEntries lists' ∧
      lists'.prepareCommit updatedLists ≠ .error (.outOfRange .chunkToPageListHeadIdxMap) ∧
      ∀ done rest itr, updatedLists = done ++ rest →
        done.foldlM (fun (itr : UnstructuredPropertyListsUpdateIterator) list ↦
          itr.updateList list.1 list.2) { lists := lists' } = .ok itr →
        (itr.lists.headers.working.length = lists'.headers.working.length ∨
          ∃ x ∈ done.getLast?, NeedsEntry lists' x.1 x.2) →
        ChunksHaveEntries itr.lists := by
  obtain ⟨hcommits, hlast⟩ := meetsAlong_append hrun hmeets
  have hinv : ∀ {as : List (List (ℕ × List UInt8))} {l l' : UnstructuredPropertyLists},
      ChunksHaveEntries l ∧ l.checkpoint = l → MeetsAlong commit OpensChunks l as →
        run commit l as = some l' → ChunksHaveEntries l' ∧ l'.checkpoint = l' :=
    run_invariant_of_meets
      fun _ _ _ h hopens hcommit ↦ chunksHaveEntries_commit hopens h.1 h.2 hcommit
  obtain ⟨hstart', hsynced'⟩ := hinv ⟨hstart, hsynced⟩ hcommits hrun
  have hopens := hlast.1
  have hslides := hstart'.slidesWithEntries hsynced'
  refine ⟨hstart', fun hfail ↦ ?_, ?_⟩
  · have hfault := (outcome_prepareCommit hsynced' hslides hopens.inOrder).error hfail
    rcases hfault with hfault | hwants
    · exact hfault rfl
    · exact hopens.not_wantsEntry hstart' hsynced' hwants
  · intro done rest itr heq hfold hwritten
    subst heq
    have hafter := (outcome_updateLists hsynced' hslides hopens.inOrder).result hfold
    unfold After at hafter
    split at hafter
    next hnone =>
      rw [hafter]
      exact hstart'
    next y hsome =>
      obtain ⟨hprogress, -, hcur⟩ := hafter
      have hlength := hprogress.length
      have hheaders : lists'.headers.working.length = lists'.headers.committed.length :=
        congrArg (fun lists ↦ lists.headers.committed.length) hsynced'
      have hchunks := hprogress.chunks
      unfold ChunksHaveEntries
      by_contra hgt
      have hlt := lt_getNumChunks_iff.mp (Nat.lt_of_not_le hgt)
      obtain ⟨c, hc⟩ : ∃ c, c = itr.lists.chunkToPageListHeadIdxMap.working.length := ⟨_, rfl⟩
      rw [← hc] at hlt hchunks
      have hnew : ¬ c * listsChunkSize < lists'.headers.committed.length :=
        fun hold ↦ absurd (hstart'.lt hsynced' (lt_getNumChunks_iff.mpr hold)) (by omega)
      rcases hwritten with hsame | ⟨x, hx, hneeds⟩
      · omega
      · rw [hsome, Option.mem_def, Option.some.injEq] at hx
        subst hx
        have hput := hprogress.put y (List.mem_of_getLast? hsome) hneeds
        have hle : c * listsChunkSize ≤ y.1 := by omega
        rw [← Nat.le_div_iff_mul_le (by decide)] at hle
        omega

/-! ## Commits to an empty table -/

def emptyLists : UnstructuredPropertyLists where
  headers := .ofList []
  chunkToPageListHeadIdxMap := .ofList []
  largeListIdxToPageListHeadIdxMap := .ofList []
  pageLists := .ofList []
  numPages := 0
  committedPages := fun _ _ ↦ 0
  workingPages := fun _ _ ↦ 0

/-- The lists after a node with one byte has been added. -/
def oneList : UnstructuredPropertyLists :=
  (commit emptyLists [(0, [1])]).getD emptyLists

theorem run_oneList : run commit emptyLists [[(0, [1])]] = some oneList := by
  have hsome : (commit emptyLists [(0, [1])]).isSome := by decide
  obtain ⟨lists, hlists⟩ := Option.isSome_iff_exists.mp hsome
  rw [run_cons_eq_some_iff]
  exact ⟨lists, hlists, by rw [run_nil, oneList, hlists, Option.getD_some]⟩

theorem opensChunks_next {node : ℕ} {data : List UInt8}
    (hlength : lists.headers.committed.length = node)
    (hchunk : node / listsChunkSize < getNumChunks node ∨ NeedsEntry lists node data) :
    OpensChunks lists [(node, data)] := by
  refine ⟨⟨List.pairwise_singleton .., ?_⟩, ?_⟩
  · intro o ho o' hge hlt
    rw [List.map_singleton, List.mem_singleton] at ho
    omega
  · intro x hx hge
    rw [List.mem_singleton.mp hx, hlength] at hge
    rw [List.mem_singleton.mp hx]
    rcases hchunk with hlt | hneeds
    · exact absurd hlt (Nat.not_lt.mpr hge)
    · exact ⟨_, List.mem_cons_self, hneeds, rfl⟩

theorem chunks_have_entries_along_commits_oneList :
    ChunksHaveEntries oneList ∧
      oneList.prepareCommit [(1, [2])] ≠ .error (.outOfRange .chunkToPageListHeadIdxMap) := by
  have hfirst : OpensChunks emptyLists [(0, [1])] :=
    opensChunks_next rfl (.inr ⟨by decide, by decide, by simp [emptyLists, ArrayVersions.ofList]⟩)
  have hsecond : OpensChunks oneList [(1, [2])] :=
    opensChunks_next (by decide) (.inl (by decide))
  have hmeets : MeetsAlong commit OpensChunks emptyLists ([[(0, [1])]] ++ [[(1, [2])]]) := by
    refine ⟨hfirst, fun lists hlists ↦ ⟨?_, fun _ _ ↦ trivial⟩⟩
    have hone : lists = oneList := by rw [oneList, hlists, Option.getD_some]
    rw [hone]
    exact hsecond
  have hentries := chunks_have_entries_along_commits (by decide) rfl hmeets run_oneList
  exact ⟨hentries.1, hentries.2.1⟩

/-- 512 nodes without properties and one with a property. -/
def fullChunkOfEmptyLists : List (ℕ × List UInt8) :=
  (List.range 512).map (·, []) ++ [(512, [1])]

def failsForWantOfEntry (lists : UnstructuredPropertyLists)
    (updatedLists : List (ℕ × List UInt8)) : Bool :=
  match lists.prepareCommit updatedLists with
  | .error fault => fault = .outOfRange .chunkToPageListHeadIdxMap
  | .ok _ => false

/-- The second chunk has no entry, nor is it the next one to get an entry. -/
theorem prepareCommit_fullChunkOfEmptyLists :
    ChunksHaveEntries emptyLists ∧ emptyLists.checkpoint = emptyLists ∧
      InOrder 0 fullChunkOfEmptyLists ∧
      emptyLists.prepareCommit fullChunkOfEmptyLists =
        .error (.outOfRange .chunkToPageListHeadIdxMap) := by
  have hoffsets : fullChunkOfEmptyLists.map Prod.fst = List.range 513 := by decide +kernel
  refine ⟨by decide, rfl, ⟨?_, ?_⟩, ?_⟩
  · rw [hoffsets]
    exact List.pairwise_lt_range
  · intro o ho o' _ hlt
    rw [hoffsets, List.mem_range] at ho ⊢
    omega
  · have hfails : failsForWantOfEntry emptyLists fullChunkOfEmptyLists := by decide +kernel
    unfold failsForWantOfEntry at hfails
    split at hfails
    next fault hfault => rw [hfault, of_decide_eq_true hfails]
    next => exact absurd hfails (by decide)

end Graphflow.Storage
