import Graphflow.Processor.ScanNodeID
import Mathlib.Tactic.IntervalCases

/-!
# What a scan covers

Whatever the order in which the threads take their turns, the ranges are handed out in ascending
order, so the offsets selected so far are those below the offset at which the next range is looked
for.
-/

namespace Graphflow.Processor

open Storage

/-! ## Masks -/

/-- A call of `setMask` changes at most the value at its position, and only upwards. -/
theorem Mask.getElem?_setMask {mask : Mask} {v : ℕ} (pos maskerIdx p : ℕ)
    (hv : mask.data[p]? = some v) :
    (mask.setMask pos maskerIdx (maskerIdx + 1)).data[p]? =
      some (if p = pos ∧ v = maskerIdx then maskerIdx + 1 else v) := by
  unfold setMask
  by_cases hpos : p = pos
  · subst hpos
    by_cases heq : v = maskerIdx
    · have hlt := (List.getElem?_eq_some_iff.mp hv).1
      rw [if_pos (hv.trans (congrArg some heq)), if_pos ⟨rfl, heq⟩]
      simp [hlt]
    · simp [hv, heq]
  · split <;> simp [hpos, List.getElem?_set_ne (Ne.symm hpos), hv]

@[simp] theorem Mask.maskedFlag_setMask {mask : Mask} {pos maskerIdx maskValue : ℕ} :
    (mask.setMask pos maskerIdx maskValue).maskedFlag = mask.maskedFlag := by
  unfold setMask
  split <;> rfl

namespace ScanNodeIDSemiMask

variable {mask : ScanNodeIDSemiMask} {maxNodeOffset numMaskers nodeOffset maskerIdx : ℕ}

/-- The value of a morsel is at least that of each of its nodes. -/
structure Nested (mask : ScanNodeIDSemiMask) (maxNodeOffset numMaskers : ℕ) : Prop where
  nodeFlag : mask.nodeMask.maskedFlag = numMaskers
  morselFlag : mask.morselMask.maskedFlag = numMaskers
  values : ∀ o ≤ maxNodeOffset, ∃ v w, mask.nodeMask.data[o]? = some v ∧
    mask.morselMask.data[o / defaultVectorCapacity]? = some w ∧ v ≤ w ∧ w ≤ numMaskers

theorem getElem?_ofMaxNodeOffset (hmax : maxNodeOffset + 1 < 2 ^ 64)
    (ho : nodeOffset ≤ maxNodeOffset) :
    (ofMaxNodeOffset maxNodeOffset numMaskers).nodeMask.data[nodeOffset]? = some 0 := by
  simp only [ofMaxNodeOffset, Mask.ofSize, Nat.mod_eq_of_lt hmax, List.getElem?_replicate]
  exact if_pos (Nat.lt_succ_of_le ho)

theorem nested_ofMaxNodeOffset (hmax : maxNodeOffset + 1 < 2 ^ 64) :
    (ofMaxNodeOffset maxNodeOffset numMaskers).Nested maxNodeOffset numMaskers where
  nodeFlag := rfl
  morselFlag := rfl
  values := by
    intro o ho
    have hmorsel : o / defaultVectorCapacity < maxNodeOffset / defaultVectorCapacity + 1 :=
      Nat.lt_succ_of_le (Nat.div_le_div_right ho)
    refine ⟨0, 0, ?_, ?_, le_rfl, Nat.zero_le _⟩
    · exact getElem?_ofMaxNodeOffset hmax ho
    · simp only [ofMaxNodeOffset, Mask.ofSize, List.getElem?_replicate]
      exact if_pos hmorsel

theorem Nested.setMask (hmask : mask.Nested maxNodeOffset numMaskers) (hlt : maskerIdx < numMaskers)
    (hnum : numMaskers < 2 ^ 8) :
    (mask.setMask nodeOffset maskerIdx).Nested maxNodeOffset numMaskers := by
  have hmod : (maskerIdx + 1) % 2 ^ 8 = maskerIdx + 1 := Nat.mod_eq_of_lt (by omega)
  refine ⟨by simp [ScanNodeIDSemiMask.setMask, hmask.nodeFlag],
    by simp [ScanNodeIDSemiMask.setMask, hmask.morselFlag], fun o ho ↦ ?_⟩
  obtain ⟨v, w, hv, hw, hle, hbound⟩ := hmask.values o ho
  refine ⟨if o = nodeOffset ∧ v = maskerIdx then maskerIdx + 1 else v,
    if o / defaultVectorCapacity = nodeOffset / defaultVectorCapacity ∧ w = maskerIdx then
      maskerIdx + 1 else w, ?_, ?_, ?_, ?_⟩
  · simp only [ScanNodeIDSemiMask.setMask, hmod]
    exact Mask.getElem?_setMask _ _ o hv
  · simp only [ScanNodeIDSemiMask.setMask, hmod]
    exact Mask.getElem?_setMask _ _ _ hw
  · by_cases hnode : o = nodeOffset ∧ v = maskerIdx
    · obtain ⟨rfl, rfl⟩ := hnode
      simp only [and_self, if_true, true_and]
      split <;> omega
    · rw [if_neg hnode]
      split <;> omega
  · split <;> omega

theorem nested_ofCalls (hmax : maxNodeOffset + 1 < 2 ^ 64) (hnum : numMaskers < 2 ^ 8)
    {calls : List (ℕ × ℕ)} (hcalls : ∀ call ∈ calls, call.2 < numMaskers) :
    (ofCalls maxNodeOffset numMaskers calls).Nested maxNodeOffset numMaskers := by
  unfold ofCalls
  have hinit : (ofMaxNodeOffset maxNodeOffset numMaskers).Nested maxNodeOffset numMaskers :=
    nested_ofMaxNodeOffset hmax
  generalize ofMaxNodeOffset maxNodeOffset numMaskers = mask at hinit
  induction calls generalizing mask with
  | nil => exact hinit
  | cons call calls ih =>
      exact ih (fun c hc ↦ hcalls c (List.mem_cons_of_mem _ hc)) _
        (hinit.setMask (hcalls call List.mem_cons_self) hnum)

/-- The value of the node is the number of maskers that have marked it so far. -/
theorem isNodeMasked_foldl (hnum : numMaskers < 2 ^ 8) {calls : List (ℕ × ℕ)}
    (hcalls : ∀ call ∈ calls, call.2 < numMaskers)
    (hsorted : calls.Pairwise fun c d ↦ c.2 ≤ d.2) {v : ℕ}
    (hv : mask.nodeMask.data[nodeOffset]? = some v) (hflag : mask.nodeMask.maskedFlag = numMaskers)
    (hle : v ≤ numMaskers) :
    (calls.foldl (fun mask call ↦ mask.setMask call.1 call.2) mask).isNodeMasked nodeOffset ↔
      ∀ k, v ≤ k → k < numMaskers → (nodeOffset, k) ∈ calls := by
  induction calls generalizing mask v with
  | nil =>
      simp only [List.foldl_nil, isNodeMasked, Mask.isMasked, hv, hflag, List.not_mem_nil,
        decide_eq_true_eq, Option.some.injEq]
      constructor
      · intro heq k hk hlt
        omega
      · intro hall
        by_contra hne
        exact hall v le_rfl (by omega)
  | cons call calls ih =>
      obtain ⟨o', k'⟩ := call
      obtain ⟨hfirst, hsorted⟩ := List.pairwise_cons.mp hsorted
      have hk' : k' < numMaskers := hcalls _ List.mem_cons_self
      have hmod : (k' + 1) % 2 ^ 8 = k' + 1 := Nat.mod_eq_of_lt (by omega)
      have hv' := Mask.getElem?_setMask o' k' nodeOffset hv
      rw [List.foldl_cons]
      refine (ih (fun c hc ↦ hcalls c (List.mem_cons_of_mem _ hc)) hsorted
        (by simpa only [setMask, hmod] using hv') (by simp [setMask, hflag])
        (by split <;> omega)).trans ?_
      by_cases hhit : nodeOffset = o' ∧ v = k'
      · obtain ⟨rfl, rfl⟩ := hhit
        simp only [and_self, if_true, List.mem_cons, Prod.mk.injEq, true_and]
        constructor
        · intro hall k hk hlt
          rcases Nat.eq_or_lt_of_le hk with rfl | hk
          · exact .inl rfl
          · exact .inr (hall k hk hlt)
        · intro hall k hk hlt
          exact (hall k (by omega) hlt).resolve_left (by omega)
      · simp only [if_neg hhit, List.mem_cons, Prod.mk.injEq]
        refine ⟨fun hall k hk hlt ↦ .inr (hall k hk hlt), fun hall k hk hlt ↦ ?_⟩
        rcases hall k hk hlt with ⟨rfl, rfl⟩ | hmem
        · -- A masker that comes too early is followed by later ones only.
          have hvk : v < k := by
            refine lt_of_le_of_ne hk fun heq ↦ hhit ⟨rfl, heq⟩
          rcases hall v le_rfl (by omega) with ⟨-, heq⟩ | hmem
          · omega
          · exact absurd (hfirst _ hmem) (by simpa using hvk)
        · exact hmem

/-- If the maskers run one after the other, a node is masked when each of them has marked it. -/
theorem isNodeMasked_ofCalls (hmax : maxNodeOffset + 1 < 2 ^ 64) (hnum : numMaskers < 2 ^ 8)
    (ho : nodeOffset ≤ maxNodeOffset) {calls : List (ℕ × ℕ)}
    (hcalls : ∀ call ∈ calls, call.2 < numMaskers)
    (hsorted : calls.Pairwise fun c d ↦ c.2 ≤ d.2) :
    (ofCalls maxNodeOffset numMaskers calls).isNodeMasked nodeOffset ↔
      ∀ k < numMaskers, (nodeOffset, k) ∈ calls := by
  simpa [ofCalls] using isNodeMasked_foldl hnum hcalls hsorted
    (getElem?_ofMaxNodeOffset hmax ho) rfl
    (Nat.zero_le _)

theorem isNodeMasked_ofCalls_twoMaskers :
    (ofCalls 5 2 [(1, 0), (3, 0), (3, 1)]).isNodeMasked 3 ↔
      ∀ k < 2, (3, k) ∈ [(1, 0), (3, 0), (3, 1)] :=
  isNodeMasked_ofCalls (by decide) (by decide) (by decide) (by decide) (by decide)

/-- The morsel of a node that all maskers have marked is handed out. -/
theorem Nested.isMorselMasked (hmask : mask.Nested maxNodeOffset numMaskers)
    (ho : nodeOffset ≤ maxNodeOffset) (hnode : mask.isNodeMasked nodeOffset) :
    mask.isMorselMasked (nodeOffset / defaultVectorCapacity) := by
  obtain ⟨v, w, hv, hw, hle, hbound⟩ := hmask.values nodeOffset ho
  simp only [isNodeMasked, Mask.isMasked, hv, hmask.nodeFlag, decide_eq_true_eq,
    Option.some.injEq] at hnode
  simp only [ScanNodeIDSemiMask.isMorselMasked, Mask.isMasked, hw, hmask.morselFlag,
    decide_eq_true_eq, Option.some.injEq]
  omega

end ScanNodeIDSemiMask

/-! ## The selection of one range -/

theorem selectNotDeleted_eq_filter {a n : ℕ} {ds : List ℕ} (hsorted : ds.Pairwise (· < ·))
    (hle : ∀ d ∈ ds, a ≤ d) :
    selectNotDeleted (List.range' a n) ds = (List.range' a n).filter fun pos ↦ pos ∉ ds := by
  induction n generalizing a ds with
  | zero => simp [selectNotDeleted]
  | succ n ih =>
      rw [List.range'_succ]
      cases ds with
      | nil =>
          have hrest := ih (a := a + 1) List.Pairwise.nil (by simp)
          simp [selectNotDeleted, hrest]
      | cons d rest =>
          obtain ⟨hd, hrest⟩ := List.pairwise_cons.mp hsorted
          by_cases heq : a = d
          · subst heq
            have hgt : ∀ d ∈ rest, a + 1 ≤ d := fun d hmem ↦ hd d hmem
            have hfilter : (List.range' (a + 1) n).filter (fun pos ↦ decide (pos ∉ a :: rest)) =
                (List.range' (a + 1) n).filter fun pos ↦ decide (pos ∉ rest) := by
              refine List.filter_congr fun pos hpos ↦ ?_
              have hne : pos ≠ a := by
                have := (List.mem_range'_1.mp hpos).1
                omega
              simp [hne]
            rw [selectNotDeleted, if_pos rfl, ih hrest hgt,
              List.filter_cons_of_neg (by simp), hfilter]
          · have hlt : a < d := lt_of_le_of_ne (hle d List.mem_cons_self) heq
            have hgt : ∀ d' ∈ d :: rest, a + 1 ≤ d' := by
              intro d' hd'
              rcases List.mem_cons.mp hd' with rfl | hd'
              · exact hlt
              · exact hlt.trans (hd d' hd')
            have hnot : a ∉ d :: rest := fun hmem ↦ absurd (hgt a hmem) (by omega)
            rw [selectNotDeleted, if_neg heq, ih hsorted hgt,
              List.filter_cons_of_pos (by simpa using hnot)]

variable {stats : NodeStatisticsAndDeletedIDs} {startOffset size : ℕ} {positions : List ℕ}

theorem length_filter_range_mem {offsets : Finset ℕ}
    (hoffsets : ∀ o ∈ offsets, startOffset ≤ o ∧ o < startOffset + size) :
    ((List.range size).filter fun pos ↦ startOffset + pos ∈ offsets).length = offsets.card := by
  have hfinset : ((List.range size).filter fun pos ↦ startOffset + pos ∈ offsets).length =
      ((Finset.range size).filter fun pos ↦ startOffset + pos ∈ offsets).card := rfl
  rw [hfinset]
  refine Finset.card_nbij' (startOffset + ·) (· - startOffset) ?_ ?_ ?_ ?_
  · intro pos hpos
    exact (Finset.mem_filter.mp hpos).2
  · intro o ho
    obtain ⟨hle, hlt⟩ := hoffsets o ho
    have hpos : o - startOffset < size := by omega
    refine Finset.mem_filter.mpr ⟨Finset.mem_range.mpr hpos, ?_⟩
    rwa [Nat.add_sub_cancel' hle]
  · intro pos _
    exact Nat.add_sub_cancel_left _ _
  · intro o ho
    exact Nat.add_sub_cancel' (hoffsets o ho).1

/-- The selection of a whole morsel, or of the last one up to the maximal offset. -/
theorem setDeletedNodeOffsetsForMorsel_eq_ok (hstats : stats.Consistent)
    (hne : stats.numTuples ≠ uint64Max) {m : ℕ} (hstart : startOffset = m * defaultVectorCapacity)
    (hlt : startOffset < stats.numTuples)
    (hsize : size = min defaultVectorCapacity (stats.numTuples - startOffset)) :
    setDeletedNodeOffsetsForMorsel stats startOffset size positions = .ok
      (if stats.deletedIn m = ∅ then positions
      else (List.range size).filter fun pos ↦ startOffset + pos ∉ stats.deletedIn m) := by
  have hmorsel : startOffset / defaultVectorCapacity = m := by
    simp only [defaultVectorCapacity] at *
    omega
  have hflag : m < stats.hasDeletedNodesPerMorsel.length := by
    refine lt_of_le_of_lt ?_ (hstats.length hne)
    rw [← hmorsel]
    exact Nat.div_le_div_right (by omega)
  have hiff := hstats.flags m _ (List.getElem?_eq_getElem hflag)
  simp only [setDeletedNodeOffsetsForMorsel, hmorsel, List.getElem?_eq_getElem hflag]
  by_cases hempty : stats.deletedIn m = ∅
  · have hnot : m ∉ stats.deletedNodeOffsetsPerMorsel := by
      intro hmem
      exact (hstats.nonempty m hmem).ne_empty hempty
    have hfalse : stats.hasDeletedNodesPerMorsel[m] = false := by
      rw [← Bool.not_eq_true, hiff]
      exact hnot
    simp [hfalse, hempty]
  · have hmem : m ∈ stats.deletedNodeOffsetsPerMorsel := by
      by_contra hnot
      exact hempty (by simp [NodeStatisticsAndDeletedIDs.deletedIn,
        Finmap.lookup_eq_none.mpr hnot])
    have htrue : stats.hasDeletedNodesPerMorsel[m] = true := hiff.mpr hmem
    -- All deleted offsets of the morsel lie in the range.
    have hoffsets : ∀ o ∈ stats.deletedIn m, startOffset ≤ o ∧ o < startOffset + size := by
      intro o ho
      obtain ⟨hdiv, hlast, -⟩ := hstats.offsets m o ho
      simp only [defaultVectorCapacity] at *
      omega
    set ds := (stats.deletedIn m).sort (· ≤ ·) with hds
    have hdsne : ds ≠ [] := by
      intro hnil
      apply hempty
      rw [← Finset.sort_toFinset (stats.deletedIn m) (· ≤ ·), ← hds, hnil]
      rfl
    have hwritten : selectNotDeleted (List.range size) (ds.map (· - startOffset)) =
        (List.range size).filter fun pos ↦ startOffset + pos ∉ stats.deletedIn m := by
      have hsorted : (ds.map (· - startOffset)).Pairwise (· < ·) := by
        rw [List.pairwise_map]
        refine (Finset.sortedLT_sort (stats.deletedIn m)).pairwise.imp_of_mem ?_
        intro a b ha hb hab
        have hle := (hoffsets a ((Finset.mem_sort _).mp ha)).1
        omega
      rw [List.range_eq_range', selectNotDeleted_eq_filter hsorted (by simp)]
      refine List.filter_congr fun pos _ ↦ ?_
      have hiff : pos ∈ ds.map (· - startOffset) ↔ startOffset + pos ∈ stats.deletedIn m := by
        rw [List.mem_map]
        constructor
        · rintro ⟨o, ho, rfl⟩
          have ho := (Finset.mem_sort _).mp ho
          rwa [Nat.add_sub_cancel' (hoffsets o ho).1]
        · intro hpos
          exact ⟨startOffset + pos, (Finset.mem_sort _).mpr hpos, Nat.add_sub_cancel_left _ _⟩
      simp [hiff]
    have hcard : ((List.range size).filter fun pos ↦ startOffset + pos ∈ stats.deletedIn m).length =
        ds.length := by
      rw [hds, Finset.length_sort]
      exact length_filter_range_mem hoffsets
    have hlength : ds.length + ((List.range size).filter fun pos ↦
        startOffset + pos ∉ stats.deletedIn m).length = size := by
      have hsplit := List.length_eq_length_filter_add (l := List.range size)
        fun pos ↦ decide (startOffset + pos ∈ stats.deletedIn m)
      simp only [List.length_range, hcard, ← decide_not] at hsplit
      exact hsplit.symm
    have hcap : size ≤ defaultVectorCapacity := by omega
    have hselected : (size + 2 ^ 16 - ds.length) % 2 ^ 16 = size - ds.length := by
      simp only [defaultVectorCapacity] at hcap
      omega
    obtain ⟨d, rest, hcons⟩ := List.exists_cons_of_ne_nil hdsne
    rw [htrue, if_neg hempty, ← hstart, hcons]
    simp only [← hcons, hwritten, hselected]
    rw [if_pos (by omega), List.take_of_length_le (by omega)]

/-- The offsets that a scan is to produce. -/
def Wanted (stats : NodeStatisticsAndDeletedIDs) (semiMask : Option ScanNodeIDSemiMask) (o : ℕ) :
    Prop :=
  o ∈ stats.live ∧ ∀ mask, semiMask = some mask → mask.isNodeMasked o

/-- Where mask and deletions do not get into each other's way: a mask comes with a last morsel that
is masked or begins with the last node, and it marks all live nodes of a masked morsel that has
deleted offsets. -/
def MaskFits (stats : NodeStatisticsAndDeletedIDs) (mask : ScanNodeIDSemiMask) : Prop :=
  (mask.isMorselMasked (stats.getMaxNodeOffset / defaultVectorCapacity) ∨
    stats.getMaxNodeOffset % defaultVectorCapacity = 0) ∧
  ∀ o ∈ stats.live, mask.isMorselMasked (o / defaultVectorCapacity) →
    (∃ d ∈ stats.deleted, d / defaultVectorCapacity = o / defaultVectorCapacity) →
    mask.isNodeMasked o

variable {s s' : ScanNodeIDSharedState} {m : ℕ}

/-- The selection of the range of a morsel. -/
theorem exists_setSelVector (hstats : stats.Consistent) (hne : stats.numTuples ≠ uint64Max)
    (hfits : ∀ mask, s.semiMask = some mask → stats.deletedIn m = ∅ ∨
      ∀ o ∈ stats.live, o / defaultVectorCapacity = m → mask.isNodeMasked o)
    (hlt : m * defaultVectorCapacity < stats.numTuples)
    (hsize : size = min defaultVectorCapacity (stats.numTuples - m * defaultVectorCapacity)) :
    ∃ positions, setSelVector s stats (m * defaultVectorCapacity)
      (m * defaultVectorCapacity + size) = .ok positions ∧ positions.Nodup ∧
      ∀ pos, pos ∈ positions ↔ pos < size ∧
        Wanted stats s.semiMask (m * defaultVectorCapacity + pos) := by
  have hmorsel : ∀ pos < size, (m * defaultVectorCapacity + pos) / defaultVectorCapacity = m := by
    intro pos hpos
    simp only [defaultVectorCapacity] at *
    omega
  have hlive : ∀ pos < size, m * defaultVectorCapacity + pos ∈ stats.live ↔
      m * defaultVectorCapacity + pos ∉ stats.deletedIn m := by
    intro pos hpos
    have hdeleted : m * defaultVectorCapacity + pos ∈ stats.deleted ↔
        m * defaultVectorCapacity + pos ∈ stats.deletedIn m := by
      simp only [NodeStatisticsAndDeletedIDs.deleted, Set.mem_ofPred_eq, hmorsel pos hpos]
    rw [hstats.mem_live_iff, hdeleted]
    have hbound : m * defaultVectorCapacity + pos < stats.numTuples := by omega
    simp [hne, hbound]
  simp only [setSelVector, Nat.add_sub_cancel_left,
    setDeletedNodeOffsetsForMorsel_eq_ok hstats hne rfl hlt hsize]
  refine ⟨_, rfl, ?_, fun pos ↦ ?_⟩
  · split
    · split
      · exact List.nodup_range.filter _
      · exact List.nodup_range
    · exact List.nodup_range.filter _
  · by_cases hempty : stats.deletedIn m = ∅
    · rw [if_pos hempty]
      cases hmask : s.semiMask with
      | none =>
          rw [List.mem_range]
          refine ⟨fun hpos ↦ ⟨hpos, (hlive pos hpos).mpr (by simp [hempty]), by simp⟩, And.left⟩
      | some mask =>
          simp only [List.mem_filter, List.mem_range, Wanted, Option.some.injEq, forall_eq']
          refine and_congr_right fun hpos ↦ ?_
          rw [hlive pos hpos, hempty, Nat.add_comm pos]
          simp
    · rw [if_neg hempty, List.mem_filter, List.mem_range]
      refine and_congr_right fun hpos ↦ ?_
      rw [Wanted, hlive pos hpos, decide_eq_true_eq]
      refine ⟨fun hnot ↦ ⟨hnot, fun mask hmask ↦ ?_⟩, And.left⟩
      exact (hfits mask hmask).resolve_left hempty _ ((hlive pos hpos).mpr hnot) (hmorsel pos hpos)

/-! ## The next range -/

open ScanNodeIDSharedState

theorem skipMorsels_spec (mask : ScanNodeIDSemiMask) (n i : ℕ) :
    i ≤ skipMorsels mask n i ∧ skipMorsels mask n i ≤ i + n ∧
      (∀ j, i ≤ j → j < skipMorsels mask n i → mask.isMorselMasked j = false) ∧
      (skipMorsels mask n i < i + n → mask.isMorselMasked (skipMorsels mask n i)) := by
  induction n generalizing i with
  | zero =>
      simp only [skipMorsels]
      exact ⟨le_rfl, le_rfl, fun j hle hlt ↦ absurd hle (by omega), fun hlt ↦ absurd hlt (by omega)⟩
  | succ n ih =>
      rw [skipMorsels]
      split
      next hmasked =>
        exact ⟨le_rfl, by omega, fun j hle hlt ↦ absurd hle (by omega), fun _ ↦ hmasked⟩
      next hmasked =>
        obtain ⟨hle, hbound, hskipped, hfound⟩ := ih (i + 1)
        refine ⟨by omega, by omega, fun j hj hlt ↦ ?_, fun hlt ↦ hfound (by omega)⟩
        rcases Nat.eq_or_lt_of_le hj with rfl | hj
        · simpa using hmasked
        · exact hskipped j hj hlt

/-- A range is that of a morsel, and only morsels that are not masked lie before it. -/
theorem exists_getNextRangeToRead (hmax : s.maxMorselIdx = s.maxNodeOffset / defaultVectorCapacity)
    (hcur : s.currentNodeOffset = m * defaultVectorCapacity)
    (hle : s.currentNodeOffset ≤ s.maxNodeOffset)
    (hne : s.maxNodeOffset ≠ uint64Max)
    (hlast : ∀ mask, s.semiMask = some mask → mask.isMorselMasked s.maxMorselIdx ∨
      s.maxNodeOffset % defaultVectorCapacity = 0) :
    ∃ j, m ≤ j ∧ j * defaultVectorCapacity ≤ s.maxNodeOffset ∧
      (∀ i, m ≤ i → i < j → ∃ mask, s.semiMask = some mask ∧ mask.isMorselMasked i = false) ∧
      (∀ mask, s.semiMask = some mask → mask.isMorselMasked j ∨
        j * defaultVectorCapacity = s.maxNodeOffset) ∧
      s.getNextRangeToRead = .ok ((j * defaultVectorCapacity, j * defaultVectorCapacity +
        min defaultVectorCapacity (s.maxNodeOffset + 1 - j * defaultVectorCapacity)), { s with
          currentNodeOffset := j * defaultVectorCapacity +
            min defaultVectorCapacity (s.maxNodeOffset + 1 - j * defaultVectorCapacity) }) := by
  have hgo : ¬ (s.maxNodeOffset < s.currentNodeOffset ∨ s.maxNodeOffset = uint64Max) := by omega
  cases hmask : s.semiMask with
  | none =>
      refine ⟨m, le_rfl, hcur ▸ hle, fun i hi hlt ↦ absurd hi (by omega), by simp, ?_⟩
      rw [hcur] at hgo
      simp only [getNextRangeToRead, hcur, hgo, if_false, hmask, Lib.pure_eq_ok, Lib.ok_bind]
  | some mask =>
      have hdiv : s.currentNodeOffset / defaultVectorCapacity = m := by
        simp only [defaultVectorCapacity] at *
        omega
      have hmod : ¬ s.currentNodeOffset % defaultVectorCapacity ≠ 0 := by
        simp only [defaultVectorCapacity] at *
        omega
      have hm : m ≤ s.maxMorselIdx := by
        rw [hmax, ← hdiv]
        exact Nat.div_le_div_right hle
      obtain ⟨hge, hbound, hskipped, hfound⟩ := skipMorsels_spec mask (s.maxMorselIdx + 1 - m) m
      set k := skipMorsels mask (s.maxMorselIdx + 1 - m) m with hk
      have hrun : s.getNextRangeToRead = .ok ((min (k * defaultVectorCapacity) s.maxNodeOffset,
          min (k * defaultVectorCapacity) s.maxNodeOffset + min defaultVectorCapacity
            (s.maxNodeOffset + 1 - min (k * defaultVectorCapacity) s.maxNodeOffset)), { s with
          currentNodeOffset := min (k * defaultVectorCapacity) s.maxNodeOffset +
            min defaultVectorCapacity
              (s.maxNodeOffset + 1 - min (k * defaultVectorCapacity) s.maxNodeOffset) }) := by
        simp only [getNextRangeToRead, hgo, if_false, hmask, hmod, Lib.pure_eq_ok,
          Lib.ok_bind, hdiv, ← hk]
      by_cases hlt : k ≤ s.maxMorselIdx
      · have hstart : k * defaultVectorCapacity ≤ s.maxNodeOffset := by
          rw [hmax] at hlt
          simp only [defaultVectorCapacity] at *
          omega
        refine ⟨k, hge, hstart, fun i hi hik ↦ ⟨mask, rfl, hskipped i hi hik⟩, ?_, ?_⟩
        · rintro _ ⟨⟩
          exact .inl (hfound (by omega))
        · rw [hrun, Nat.min_eq_left hstart, hmask]
      · -- No morsel is left: the range begins with the last node.
        have hnot : mask.isMorselMasked s.maxMorselIdx = false := hskipped _ hm (by omega)
        have hzero := (hlast mask hmask).resolve_left (by simp [hnot])
        have hstart : s.maxMorselIdx * defaultVectorCapacity = s.maxNodeOffset := by
          rw [hmax]
          simp only [defaultVectorCapacity] at *
          omega
        have hmin : min (k * defaultVectorCapacity) s.maxNodeOffset = s.maxNodeOffset := by
          simp only [defaultVectorCapacity] at *
          omega
        refine ⟨s.maxMorselIdx, hm, hstart.le, fun i hi hik ↦ ⟨mask, rfl, hskipped i hi (by omega)⟩,
          ?_, ?_⟩
        · intro _ _
          exact .inr hstart
        · rw [hrun, hmin, hstart, hmask]

/-! ## Whole scans -/

variable {semiMask : Option ScanNodeIDSemiMask} {scan scan' : Scan}

/-- The offsets below the current one that are to be selected have been selected once each. -/
structure Covers (stats : NodeStatisticsAndDeletedIDs) (semiMask : Option ScanNodeIDSemiMask)
    (scan : Scan) : Prop where
  maxNodeOffset : scan.shared.maxNodeOffset = stats.getMaxNodeOffset
  maxMorselIdx : scan.shared.maxMorselIdx = stats.getMaxNodeOffset / defaultVectorCapacity
  mask : scan.shared.semiMask = semiMask
  current : (∃ m, scan.shared.currentNodeOffset = m * defaultVectorCapacity) ∨
    stats.getMaxNodeOffset < scan.shared.currentNodeOffset
  ranges : ∀ r ∈ scan.ranges, r.1 % defaultVectorCapacity = 0
  nodup : (scan.selected.map Prod.snd).Nodup
  mem_iff : ∀ o, o ∈ scan.selected.map Prod.snd ↔
    o < scan.shared.currentNodeOffset ∧ Wanted stats semiMask o
  bound : scan.shared.currentNodeOffset ≤ stats.getMaxNodeOffset + 1
  length : scan.ranges.length * defaultVectorCapacity <
    scan.shared.currentNodeOffset + defaultVectorCapacity
  finished : scan.finished.Nonempty →
    stats.getMaxNodeOffset < scan.shared.currentNodeOffset ∨ stats.getMaxNodeOffset = uint64Max

theorem covers_init : Covers stats semiMask { shared := .ofStatistics stats semiMask } where
  maxNodeOffset := rfl
  maxMorselIdx := rfl
  mask := rfl
  current := .inl ⟨0, by simp [ofStatistics]⟩
  ranges := by simp
  nodup := by simp
  mem_iff := by simp [ofStatistics]
  bound := by simp [ofStatistics]
  length := by simp [defaultVectorCapacity]
  finished := by simp

/-- The table and the mask of a scan. -/
structure Suitable (stats : NodeStatisticsAndDeletedIDs) (semiMask : Option ScanNodeIDSemiMask) :
    Prop where
  consistent : stats.Consistent
  nested : ∀ mask, semiMask = some mask → stats.getMaxNodeOffset ≠ uint64Max →
    ∃ numMaskers, mask.Nested stats.getMaxNodeOffset numMaskers
  fits : ∀ mask, semiMask = some mask → stats.getMaxNodeOffset ≠ uint64Max → MaskFits stats mask

/-- The turn of a thread for which no range is left. -/
theorem Covers.turn_of_end (hscan : Covers stats semiMask scan)
    (hend : stats.getMaxNodeOffset < scan.shared.currentNodeOffset ∨
      stats.getMaxNodeOffset = uint64Max) (thread : ℕ) :
    ∃ scan', turn stats scan thread = some scan' ∧ Covers stats semiMask scan' := by
  have hrange : scan.shared.getNextRangeToRead =
      .ok ((scan.shared.currentNodeOffset, scan.shared.currentNodeOffset), scan.shared) := by
    simp [getNextRangeToRead, hscan.maxNodeOffset, hend]
  refine ⟨{ scan with finished := insert thread scan.finished }, ?_, ?_⟩
  · simp [turn, hrange]
  · exact { hscan with finished := fun _ ↦ hend }

/-- In the morsel of a range, the mask does not get into the way of the deleted offsets. -/
theorem Suitable.range_fits (hsuit : Suitable stats semiMask)
    (hne : stats.getMaxNodeOffset ≠ uint64Max) {mask : ScanNodeIDSemiMask}
    (hmask : semiMask = some mask)
    (hfound : mask.isMorselMasked m ∨ m * defaultVectorCapacity = stats.getMaxNodeOffset) :
    stats.deletedIn m = ∅ ∨
      ∀ o ∈ stats.live, o / defaultVectorCapacity = m → mask.isNodeMasked o := by
  rw [or_iff_not_imp_left]
  intro hempty o ho hom
  obtain ⟨d, hd⟩ := Finset.nonempty_iff_ne_empty.mpr hempty
  obtain ⟨hdm, hdlt, hnum⟩ := hsuit.consistent.offsets m d hd
  have hdeleted : d ∈ stats.deleted := by
    simpa only [NodeStatisticsAndDeletedIDs.deleted, Set.mem_ofPred_eq, hdm] using hd
  rcases hfound with hmasked | hlast
  · apply (hsuit.fits mask hmask hne).2 o ho
    · rwa [hom]
    · exact ⟨d, hdeleted, hdm.trans hom.symm⟩
  · -- The morsel has one offset, which cannot be both live and deleted.
    obtain ⟨-, hle, hnot⟩ := ho
    have hmax := hsuit.consistent.getMaxNodeOffset hnum
    have hdo : d = o := by
      simp only [defaultVectorCapacity] at *
      omega
    exact absurd (hdo ▸ hdeleted) hnot

theorem Covers.turn_of_range (hsuit : Suitable stats semiMask) (hscan : Covers stats semiMask scan)
    (hle : scan.shared.currentNodeOffset ≤ stats.getMaxNodeOffset)
    (hne : stats.getMaxNodeOffset ≠ uint64Max) (thread : ℕ) :
    ∃ scan', turn stats scan thread = some scan' ∧ Covers stats semiMask scan' := by
  have hnum : stats.numTuples ≠ uint64Max := mt hsuit.consistent.getMaxNodeOffset_eq_iff.mpr hne
  have hmax := hsuit.consistent.getMaxNodeOffset hnum
  have hpos := (hsuit.consistent.numTuples.resolve_left hnum).1
  have hlive : ∀ o ∈ stats.live, o < stats.numTuples := fun o ho ↦
    (hsuit.consistent.mem_live_iff.mp ho).2.1
  obtain ⟨m, hm⟩ := hscan.current.resolve_right (by omega)
  obtain ⟨j, hmj, hj, hskipped, hfound, hrange⟩ := exists_getNextRangeToRead
    (hscan.maxMorselIdx.trans (by rw [hscan.maxNodeOffset])) hm (hscan.maxNodeOffset ▸ hle)
    (hscan.maxNodeOffset ▸ hne) (fun mask hmask ↦ by
      rw [hscan.maxMorselIdx, hscan.maxNodeOffset]
      exact (hsuit.fits mask (hscan.mask ▸ hmask) hne).1)
  have hlt : j * defaultVectorCapacity < stats.numTuples := by
    rw [hscan.maxNodeOffset] at hj
    omega
  obtain ⟨size, hsize⟩ : ∃ size, size =
      min defaultVectorCapacity (stats.numTuples - j * defaultVectorCapacity) := ⟨_, rfl⟩
  have hsize' : min defaultVectorCapacity
      (scan.shared.maxNodeOffset + 1 - j * defaultVectorCapacity) = size := by
    rw [hsize, hscan.maxNodeOffset, hmax, Nat.sub_add_cancel hpos]
  have hpossize : 0 < size := by
    simp only [defaultVectorCapacity] at *
    omega
  rw [hsize'] at hrange
  rw [hscan.maxNodeOffset, hscan.mask] at hfound
  rw [hscan.mask] at hskipped
  obtain ⟨next, hnext⟩ : ∃ next : ScanNodeIDSharedState, next =
    { scan.shared with currentNodeOffset := j * defaultVectorCapacity + size } := ⟨_, rfl⟩
  have hmask : next.semiMask = semiMask := by rw [hnext, hscan.mask]
  have hcur : next.currentNodeOffset = j * defaultVectorCapacity + size := by rw [hnext]
  obtain ⟨positions, hpositions, hnodup, hmem⟩ := exists_setSelVector (s := next)
    hsuit.consistent hnum (fun mask hsome ↦ hsuit.range_fits hne (hmask.symm.trans hsome)
      (hfound mask (hmask.symm.trans hsome))) hlt hsize
  rw [hmask] at hmem
  refine ⟨{ scan with
    shared := next
    ranges := scan.ranges ++ [(j * defaultVectorCapacity, j * defaultVectorCapacity + size)]
    selected := scan.selected ++
      positions.map fun pos ↦ (thread, j * defaultVectorCapacity + pos) }, ?_, ?_⟩
  · simp only [Processor.turn, hrange, ← hnext, hpositions]
    exact if_neg (by omega)
  -- A node in a morsel that is skipped is not wanted.
  have hgap : ∀ o, m * defaultVectorCapacity ≤ o → o < j * defaultVectorCapacity →
      ¬ Wanted stats semiMask o := by
    rintro o hmo hoj ⟨ho, hmasked⟩
    obtain ⟨mask, hmask, hnot⟩ := hskipped (o / defaultVectorCapacity)
      (by simp only [defaultVectorCapacity] at *; omega)
      (by simp only [defaultVectorCapacity] at *; omega)
    obtain ⟨numMaskers, hnested⟩ := hsuit.nested mask hmask hne
    simp [hnested.isMorselMasked (by omega) (hmasked mask hmask)] at hnot
  have hselected : (scan.selected ++ positions.map fun pos ↦
      (thread, j * defaultVectorCapacity + pos)).map Prod.snd =
        scan.selected.map Prod.snd ++ positions.map (j * defaultVectorCapacity + ·) := by
    simp
  exact {
    maxNodeOffset := by rw [hnext, hscan.maxNodeOffset]
    maxMorselIdx := by rw [hnext, hscan.maxMorselIdx]
    mask := hmask
    current := by
      rw [hcur]
      by_cases hfull : size = defaultVectorCapacity
      · exact .inl ⟨j + 1, by rw [hfull, Nat.succ_mul]⟩
      · right
        omega
    ranges := by
      intro r hr
      rcases List.mem_append.mp hr with hr | hr
      · exact hscan.ranges r hr
      · obtain rfl := List.mem_singleton.mp hr
        exact Nat.mul_mod_left _ _
    nodup := by
      rw [hselected, List.nodup_append]
      refine ⟨hscan.nodup, hnodup.map fun a b hab ↦ Nat.add_left_cancel hab, ?_⟩
      rintro a ha b hb rfl
      obtain ⟨pos, -, rfl⟩ := List.mem_map.mp hb
      have hbefore := ((hscan.mem_iff _).mp ha).1
      have hmul := Nat.mul_le_mul_right defaultVectorCapacity hmj
      omega
    mem_iff := by
      intro o
      rw [hselected, List.mem_append, hscan.mem_iff, List.mem_map, hcur]
      constructor
      · rintro (⟨hlto, hwanted⟩ | ⟨pos, hpos', rfl⟩)
        · have hmul := Nat.mul_le_mul_right defaultVectorCapacity hmj
          exact ⟨by omega, hwanted⟩
        · obtain ⟨hpos', hwanted⟩ := (hmem pos).mp hpos'
          exact ⟨Nat.add_lt_add_left hpos' _, hwanted⟩
      · rintro ⟨hlto, hwanted⟩
        by_cases hbefore : o < j * defaultVectorCapacity
        · by_cases hcur : o < scan.shared.currentNodeOffset
          · exact .inl ⟨hcur, hwanted⟩
          · exact absurd hwanted (hgap o (by omega) hbefore)
        · refine .inr ⟨o - j * defaultVectorCapacity, (hmem _).mpr ⟨?_, ?_⟩, by omega⟩
          · omega
          · rwa [Nat.add_sub_cancel' (by omega)]
    bound := by
      rw [hcur]
      omega
    length := by
      have hbefore := hscan.length
      rw [hm, ← Nat.succ_mul] at hbefore
      have hle' := Nat.lt_succ_iff.mp (Nat.lt_of_mul_lt_mul_right hbefore)
      have hmul := Nat.mul_le_mul_right defaultVectorCapacity (hle'.trans hmj)
      rw [hcur, List.length_append, List.length_singleton, Nat.succ_mul]
      omega
    finished := fun hfinished ↦ by
      rcases hscan.finished hfinished with hend | hend
      · omega
      · exact .inr hend }

/-- A turn of any thread. -/
theorem Covers.turn (hsuit : Suitable stats semiMask) (hscan : Covers stats semiMask scan)
    (thread : ℕ) : ∃ scan', turn stats scan thread = some scan' ∧ Covers stats semiMask scan' := by
  by_cases hend : stats.getMaxNodeOffset < scan.shared.currentNodeOffset ∨
      stats.getMaxNodeOffset = uint64Max
  · exact hscan.turn_of_end hend thread
  · rw [not_or, not_lt] at hend
    exact hscan.turn_of_range hsuit hend.1 hend.2 thread

/-- A turn hands out a range or ends the scan of its thread. -/
theorem length_ranges_add_card_finished {thread : ℕ} (hthread : thread ∉ scan.finished)
    (hturn : turn stats scan thread = some scan') :
    scan'.ranges.length + scan'.finished.card = scan.ranges.length + scan.finished.card + 1 := by
  unfold turn at hturn
  split at hturn
  · simp at hturn
  · split at hturn
    · obtain rfl := Option.some.inj hturn
      simp [Finset.card_insert_of_notMem hthread]
      omega
    · split at hturn
      · simp at hturn
      · obtain rfl := Option.some.inj hturn
        simp
        omega

theorem finished_subset {threads : Finset ℕ} {thread : ℕ} (hthread : thread ∈ threads)
    (hscan : scan.finished ⊆ threads) (hturn : turn stats scan thread = some scan') :
    scan'.finished ⊆ threads := by
  unfold turn at hturn
  split at hturn
  · simp at hturn
  · split at hturn
    · obtain rfl := Option.some.inj hturn
      exact Finset.insert_subset hthread hscan
    · split at hturn
      · simp at hturn
      · obtain rfl := Option.some.inj hturn
        exact hscan

/-- A thread takes no further turn once its scan has ended. -/
def MayTurn (threads : Finset ℕ) (scan : Scan) (thread : ℕ) : Prop :=
  thread ∈ threads ∧ thread ∉ scan.finished

/-- The masks of the table can be allocated. -/
def MasksFit (memory maxNodeOffset : ℕ) : Prop :=
  (ScanNodeIDSemiMask.sizes maxNodeOffset).1 ≤ memory ∧
    (ScanNodeIDSemiMask.sizes maxNodeOffset).2 ≤ memory

instance {memory maxNodeOffset : ℕ} : Decidable (MasksFit memory maxNodeOffset) :=
  inferInstanceAs (Decidable (_ ∧ _))

/-- Those of an empty table, whose last offset is `UINT64_MAX`, cannot. -/
theorem MasksFit.lt {memory maxNodeOffset : ℕ} (h : MasksFit memory maxNodeOffset)
    (hmemory : memory < 2 ^ 53) (hmax : maxNodeOffset ≤ uint64Max) :
    maxNodeOffset + 1 < 2 ^ 64 := by
  have hmorsels : maxNodeOffset / defaultVectorCapacity + 1 ≤ memory := h.2
  simp only [uint64Max, defaultVectorCapacity] at *
  omega

theorem exists_ofMaskers {memory maxNodeOffset : ℕ} {maskers : Option (ℕ × List (ℕ × ℕ))}
    (halloc : maskers.isSome → MasksFit memory maxNodeOffset)
    (hlast : stats.getMaxNodeOffset = maxNodeOffset) :
    ∃ semiMask, ScanNodeIDSemiMask.ofMaskers memory stats maskers = .ok semiMask ∧
      ∀ mask, semiMask = some mask → ∃ m ∈ maskers, mask = .ofCalls maxNodeOffset m.1 m.2 := by
  cases maskers with
  | none => exact ⟨none, rfl, fun mask hmask ↦ absurd hmask (Option.some_ne_none mask).symm⟩
  | some m =>
      obtain ⟨hnodes, hmorsels⟩ := halloc rfl
      refine ⟨some (.ofCalls maxNodeOffset m.1 m.2), ?_, fun mask hmask ↦
        ⟨m, rfl, (Option.some.inj hmask).symm⟩⟩
      simp only [ScanNodeIDSemiMask.ofMaskers, ScanNodeIDSemiMask.allocate, Mask.allocate, hlast,
        if_pos hnodes, if_pos hmorsels, Lib.ok_bind, Lib.pure_eq_ok]
      rfl

/-- Whatever the order of the turns, each of them is possible and begins a range on a morsel
boundary, there are boundedly many, and at their end the wanted offsets have been selected once
each. -/
theorem scan_selects_wanted (tableID maxNodeOffset : ℕ) (deletedNodeOffsets : List ℕ)
    (hmax : maxNodeOffset ≠ uint64Max - 1) (hmax' : maxNodeOffset ≤ uint64Max)
    (hdeleted : ∀ o ∈ deletedNodeOffsets, maxNodeOffset ≠ uint64Max ∧ o ≤ maxNodeOffset)
    (hstats : NodeStatisticsAndDeletedIDs.ofDeletedNodeOffsets tableID maxNodeOffset
      deletedNodeOffsets = .ok stats)
    {memory : ℕ} (hmemory : memory < 2 ^ 53) (maskers : Option (ℕ × List (ℕ × ℕ)))
    (hmaskers : ∀ m ∈ maskers, m.1 < 2 ^ 8 ∧
      ∀ call ∈ m.2, call.1 ≤ maxNodeOffset ∧ call.2 < m.1)
    (halloc : maskers.isSome → MasksFit memory maxNodeOffset)
    (hfits : ∀ m ∈ maskers, MaskFits stats (.ofCalls maxNodeOffset m.1 m.2))
    {threads : Finset ℕ} (hthreads : threads.Nonempty) :
    ∃ semiMask, ScanNodeIDSemiMask.ofMaskers memory stats maskers = .ok semiMask ∧
      ∀ turns, Lib.MeetsAlong (turn stats) (MayTurn threads)
          { shared := .ofStatistics stats semiMask } turns →
        ∃ scan, Lib.run (turn stats) { shared := .ofStatistics stats semiMask } turns =
            some scan ∧
          (∀ r ∈ scan.ranges, r.1 % defaultVectorCapacity = 0) ∧
          turns.length ≤ stats.getMaxNodeOffset / defaultVectorCapacity + 1 + threads.card ∧
          (threads ⊆ scan.finished → (scan.selected.map Prod.snd).Nodup ∧
            ∀ o, o ∈ scan.selected.map Prod.snd ↔ Wanted stats semiMask o) := by
  obtain ⟨_, hok, hconsistent, hlast, -⟩ :=
    NodeStatisticsAndDeletedIDs.exists_constructed tableID hmax hmax' hdeleted
  obtain rfl := Except.ok.inj (hstats.symm.trans hok)
  obtain ⟨semiMask, hsemiMask, hmask⟩ := exists_ofMaskers halloc hlast
  have hsuit : Suitable stats semiMask := by
    refine ⟨hconsistent, fun mask hsome _ ↦ ?_, fun mask hsome _ ↦ ?_⟩
    · obtain ⟨m, hm, rfl⟩ := hmask mask hsome
      obtain ⟨hnum, hcalls⟩ := hmaskers m hm
      have hlt := (halloc (Option.isSome_of_mem hm)).lt hmemory hmax'
      rw [hlast]
      exact ⟨m.1, ScanNodeIDSemiMask.nested_ofCalls hlt hnum fun c hc ↦ (hcalls c hc).2⟩
    · obtain ⟨m, hm, rfl⟩ := hmask mask hsome
      exact hfits m hm
  refine ⟨semiMask, hsemiMask, fun turns hturns ↦ ?_⟩
  have hstep : ∀ (scan : Scan) thread, Covers stats semiMask scan ∧ scan.finished ⊆ threads →
      MayTurn threads scan thread → ∃ scan', turn stats scan thread = some scan' ∧
        Covers stats semiMask scan' ∧ scan'.finished ⊆ threads := by
    rintro scan thread ⟨hscan, hsub⟩ ⟨hthread, -⟩
    obtain ⟨scan', hturn, hscan'⟩ := hscan.turn hsuit thread
    exact ⟨scan', hturn, hscan', finished_subset hthread hsub hturn⟩
  obtain ⟨scan, hrun, hscan, hsub⟩ :=
    Lib.exists_run_of_meets hstep ⟨covers_init, Finset.empty_subset _⟩ hturns
  have hcount := Lib.measure_of_meets (fun scan ↦ scan.ranges.length + scan.finished.card)
    (fun _ _ _ hmay hturn ↦ length_ranges_add_card_finished hmay.2 hturn) hturns hrun
  have hcard := Finset.card_le_card hsub
  refine ⟨scan, hrun, hscan.ranges, ?_, fun hall ↦ ⟨hscan.nodup, fun o ↦ ?_⟩⟩
  · have hlength := hscan.length
    have hbound := hscan.bound
    simp only [List.length_nil, Finset.card_empty] at hcount
    simp only [defaultVectorCapacity] at *
    omega
  · rw [hscan.mem_iff]
    refine ⟨And.right, fun hwanted ↦ ⟨?_, hwanted⟩⟩
    obtain ⟨hne, hle, -⟩ := hwanted.1
    have hend := (hscan.finished (hthreads.mono hall)).resolve_right hne
    exact lt_of_le_of_lt hle hend

/-- Three nodes of which the second is deleted. -/
def threeNodes : NodeStatisticsAndDeletedIDs := ⟨3, 0, [true], Finmap.singleton 0 {1}⟩

/-- A scan of them with one masker before its first turn. -/
def scanThreeNodes (calls : List (ℕ × ℕ)) : Scan where
  shared := .ofStatistics threeNodes (some (.ofCalls 2 1 calls))

def scanThreeNodesNext (calls : List (ℕ × ℕ)) : Scan where
  shared := ⟨2, 0, 3, some (.ofCalls 2 1 calls)⟩
  ranges := [(0, 3)]
  selected := [(0, 0), (0, 2)]

theorem selection_threeNodes (positions : List ℕ) :
    setDeletedNodeOffsetsForMorsel threeNodes 0 3 positions = .ok [0, 2] := by
  have hdeleted : threeNodes.deletedIn 0 = {1} := rfl
  have hflag : threeNodes.hasDeletedNodesPerMorsel[0]? = some true := rfl
  simp only [setDeletedNodeOffsetsForMorsel, Nat.zero_div, hflag, hdeleted, Finset.sort_singleton]
  rfl

/-- The first turn selects whatever is not deleted. -/
theorem turn_scanThreeNodes {calls : List (ℕ × ℕ)}
    (hmasked : (ScanNodeIDSemiMask.ofCalls 2 1 calls).isMorselMasked 0) :
    turn threeNodes (scanThreeNodes calls) 0 = some (scanThreeNodesNext calls) := by
  have hlast : threeNodes.getMaxNodeOffset = 2 := rfl
  have hrange : (scanThreeNodes calls).shared.getNextRangeToRead =
      .ok ((0, 3), (scanThreeNodesNext calls).shared) := by
    simp [scanThreeNodes, getNextRangeToRead, ofStatistics, hlast, skipMorsels,
      defaultVectorCapacity, uint64Max, hmasked, scanThreeNodesNext]
  simp only [turn, hrange, setSelVector, Nat.sub_zero, selection_threeNodes]
  rfl

theorem run_scanThreeNodes (calls : List (ℕ × ℕ))
    (hmasked : (ScanNodeIDSemiMask.ofCalls 2 1 calls).isMorselMasked 0) :
    Lib.MeetsAlong (turn threeNodes) (MayTurn {0}) (scanThreeNodes calls) [0, 0] ∧
      Lib.run (turn threeNodes) (scanThreeNodes calls) [0, 0] =
        some { scanThreeNodesNext calls with finished := {0} } := by
  have hturn := turn_scanThreeNodes hmasked
  constructor
  · refine Lib.meetsAlong_cons_of_eq_some ⟨by decide, by simp [scanThreeNodes]⟩ hturn ?_
    exact ⟨⟨by decide, by simp [scanThreeNodesNext]⟩, fun _ _ ↦ trivial⟩
  · rw [Lib.run_cons_eq_some_iff]
    exact ⟨_, hturn, rfl⟩

theorem scan_selects_wanted_threeNodes : ∃ scan,
    Lib.run (turn threeNodes) (scanThreeNodes [(0, 0), (2, 0)]) [0, 0] = some scan ∧
      {0} ⊆ scan.finished ∧ (scan.selected.map Prod.snd).Nodup ∧
      ∀ o, o ∈ scan.selected.map Prod.snd ↔
        Wanted threeNodes (some (.ofCalls 2 1 [(0, 0), (2, 0)])) o := by
  obtain ⟨hmeets, hrun⟩ := run_scanThreeNodes [(0, 0), (2, 0)] (by decide)
  have hstats : NodeStatisticsAndDeletedIDs.ofDeletedNodeOffsets 0 2 [1] = .ok threeNodes := rfl
  obtain ⟨semiMask, hmask, hscan⟩ := scan_selects_wanted 0 2 [1] (by decide) (by decide)
    (by decide) hstats (by decide : 10 < 2 ^ 53) (some (1, [(0, 0), (2, 0)]))
    (fun m hm ↦ by
      obtain rfl := Option.some.inj hm
      exact ⟨by decide, by decide⟩)
    (fun _ ↦ by decide)
    (fun m hm ↦ by
      obtain rfl := Option.some.inj hm
      refine ⟨.inl (by decide), fun o ho _ _ ↦ ?_⟩
      obtain ⟨-, hle, hnot⟩ := ho
      have hle : o ≤ 2 := hle
      have hne : o ≠ 1 := fun heq ↦ hnot (by rw [heq]; exact Finset.mem_singleton_self 1)
      interval_cases o
      · decide
      · exact absurd rfl hne
      · decide) (Finset.singleton_nonempty 0)
  obtain rfl : some (.ofCalls 2 1 [(0, 0), (2, 0)]) = semiMask := Except.ok.inj hmask
  obtain ⟨scan, hrun', -, -, hall⟩ := hscan [0, 0] hmeets
  have hfinished : {0} ⊆ scan.finished := by
    obtain rfl := Option.some.inj (hrun.symm.trans hrun')
    exact Finset.Subset.refl _
  exact ⟨scan, hrun', hfinished, hall hfinished⟩

/-- The mask asks for the first node only, but the third one is selected as well. -/
theorem scanThreeNodes_not_wanted : ∃ scan,
    NodeStatisticsAndDeletedIDs.ofDeletedNodeOffsets 0 2 [1] = .ok threeNodes ∧
      Lib.MeetsAlong (turn threeNodes) (MayTurn {0}) (scanThreeNodes [(0, 0)]) [0, 0] ∧
      Lib.run (turn threeNodes) (scanThreeNodes [(0, 0)]) [0, 0] = some scan ∧
      {0} ⊆ scan.finished ∧ ¬ ∀ o, o ∈ scan.selected.map Prod.snd ↔
        Wanted threeNodes (some (.ofCalls 2 1 [(0, 0)])) o := by
  obtain ⟨hmeets, hrun⟩ := run_scanThreeNodes [(0, 0)] (by decide)
  refine ⟨_, rfl, hmeets, hrun, Finset.Subset.refl _, fun hall ↦ ?_⟩
  have hwanted := (hall 2).mp (by decide)
  exact absurd (hwanted.2 _ rfl) (by decide)

end Graphflow.Processor
