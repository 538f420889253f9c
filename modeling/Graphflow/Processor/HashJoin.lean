import Graphflow.Storage.TableStatistics
import Mathlib.Logic.Function.Basic

/-!
# Hash joins

The tuples of a slot are chained.  `HashJoinProbe` follows the chain of a flat key, and stops where
the matches fill a vector.
-/

namespace Graphflow.Processor

open Lib Storage

/-! ## The table -/

structure ProbeKey (K : Type) where
  pos : ℕ
  key : K
  isNull : Bool

/-- A pointer to a tuple is given by the chain that begins there. -/
structure JoinHashTable (K V : Type) where
  hash : K → ℕ
  bitmask : ℕ
  tuples : List (K × V)

namespace JoinHashTable

variable {K V : Type} (ht : JoinHashTable K V)

def getSlotIdxForHash (hash : ℕ) : ℕ := hash &&& ht.bitmask

def insertEntry (slots : ℕ → List (K × V)) (tuple : K × V) : ℕ → List (K × V) :=
  let slotIdx := ht.getSlotIdxForHash (ht.hash tuple.1)
  Function.update slots slotIdx (tuple :: slots slotIdx)

/-- The slots are allocated empty. -/
def buildHashSlots : ℕ → List (K × V) := ht.tuples.foldl ht.insertEntry fun _ ↦ []

def getTupleForHash (hash : ℕ) : List (K × V) := ht.buildHashSlots (ht.getSlotIdxForHash hash)

def probe (k : ProbeKey K) (probedTuples : ℕ → List (K × V)) : ℕ → List (K × V) :=
  if ht.tuples.length = 0 then probedTuples
  else if k.isNull then probedTuples
  else Function.update probedTuples k.pos (ht.getTupleForHash (ht.hash k.key))

end JoinHashTable

/-! ## Probing -/

inductive JoinType
  | inner
  | left
  deriving DecidableEq

/-- `pulled` is what the child has still to produce.  A row without a match has nulls. -/
structure ProbeState (K V : Type) where
  pulled : List (ProbeKey K)
  probeKey : ProbeKey K
  probedTuples : ℕ → List (K × V) := fun _ ↦ []
  matchedTuples : List (K × V) := []
  nextMatchedTupleIdx : ℕ := 0
  outputs : List (ProbeKey K × Option V) := []

variable {K V : Type} [DecidableEq K]

/-- The loop over a chain.  What is behind the last match that fits stays for later. -/
def matchTuples (key : K) : ℕ → List (K × V) → List (K × V) × List (K × V)
  | _, [] => ([], [])
  | numMatched, tuple :: chain =>
      if numMatched = defaultVectorCapacity then ([], tuple :: chain)
      else if tuple.1 = key then
        let rest := matchTuples key (numMatched + 1) chain
        (tuple :: rest.1, rest.2)
      else matchTuples key numMatched chain

namespace ProbeState

def probed (s : ProbeState K V) : List (K × V) := s.probedTuples s.probeKey.pos

def matchBatch (s : ProbeState K V) : ProbeState K V :=
  let batch := matchTuples s.probeKey.key 0 s.probed
  { s with
    probedTuples := Function.update s.probedTuples s.probeKey.pos batch.2
    matchedTuples := batch.1
    nextMatchedTupleIdx := 0 }

def getNextBatchOfMatchedTuples (ht : JoinHashTable K V) (s : ProbeState K V) :
    Option (ProbeState K V) :=
  if s.nextMatchedTupleIdx < s.matchedTuples.length then some s
  else if s.probed ≠ [] then some s.matchBatch
  else
    match s.pulled with
    | [] => none
    | k :: pulled => some (matchBatch
        { s with probeKey := k, pulled := pulled, probedTuples := ht.probe k s.probedTuples })

def output (s : ProbeState K V) (row : Option V) : ProbeState K V :=
  { s with outputs := s.outputs ++ [(s.probeKey, row)] }

def getNextJoinResult (joinType : JoinType) (s : ProbeState K V) : ProbeState K V :=
  if s.matchedTuples.length = 0 then if joinType = .left then s.output none else s
  else
    { s.output (s.matchedTuples[s.nextMatchedTupleIdx]?.map Prod.snd) with
      nextMatchedTupleIdx := s.nextMatchedTupleIdx + 1 }

/-- A turn of the loop of `getNextTuples`, of which a call makes as many as it takes to output a
row. -/
def turn (ht : JoinHashTable K V) (joinType : JoinType) (s : ProbeState K V) (_ : Unit) :
    Option (ProbeState K V) :=
  (s.getNextBatchOfMatchedTuples ht).map (getNextJoinResult joinType)

end ProbeState

/-! ## Chains -/

/-- The rows of a key.  A left join has a null also where the matches fill a vector and something of
another key is left at the end of the chain. -/
def joined (joinType : JoinType) (key : K) (chain : List (K × V)) : List (Option V) :=
  let matched := chain.filter fun tuple ↦ tuple.1 = key
  matched.map (some ·.2) ++
    if joinType = .left ∧ defaultVectorCapacity ∣ matched.length ∧
        ∀ tuple ∈ chain.getLast?, tuple.1 ≠ key then
      [none] else []

/-- What the loop takes from a chain, and what it leaves of it. -/
structure Matches (key : K) (numMatched : ℕ) (chain : List (K × V))
    (batch : List (K × V) × List (K × V)) : Prop where
  suffix : batch.2 <:+ chain
  filter : (chain.filter fun tuple ↦ tuple.1 = key) =
    batch.1 ++ batch.2.filter fun tuple ↦ tuple.1 = key
  fits : numMatched + batch.1.length ≤ defaultVectorCapacity
  full : batch.2 ≠ [] → numMatched + batch.1.length = defaultVectorCapacity
  last : batch.2 = [] → numMatched + batch.1.length = defaultVectorCapacity →
    chain = [] ∨ ∃ tuple ∈ chain.getLast?, tuple.1 = key

theorem matches_matchTuples (key : K) {numMatched : ℕ} (hle : numMatched ≤ defaultVectorCapacity)
    (chain : List (K × V)) : Matches key numMatched chain (matchTuples key numMatched chain) := by
  induction chain generalizing numMatched with
  | nil => exact ⟨List.suffix_rfl, rfl, hle, fun h ↦ absurd rfl h, fun _ _ ↦ Or.inl rfl⟩
  | cons tuple chain ih =>
      have hlast : (∃ t ∈ chain.getLast?, t.1 = key) →
          ∃ t ∈ (tuple :: chain).getLast?, t.1 = key := by
        rintro ⟨t, ht, hkey⟩
        exact ⟨t, by rw [List.getLast?_cons, Option.mem_def.mp ht]; rfl, hkey⟩
      rw [matchTuples]
      split_ifs with hfull hkey
      · exact ⟨List.suffix_rfl, rfl, hle, fun _ ↦ hfull, fun h ↦ absurd h (List.cons_ne_nil _ _)⟩
      · have h : Matches key (numMatched + 1) chain _ := ih (by omega)
        refine ⟨h.suffix.trans (List.suffix_cons _ _), ?_, ?_, fun hne ↦ ?_,
          fun hnil hfull' ↦ .inr ?_⟩
        · exact (List.filter_cons_of_pos (by simpa using hkey)).trans
            (congrArg (tuple :: ·) h.filter)
        · have := h.fits
          rw [List.length_cons]
          omega
        · have := h.full hne
          rw [List.length_cons]
          omega
        · rw [List.length_cons] at hfull'
          obtain rfl | hmatch := h.last hnil (by omega)
          · exact ⟨tuple, rfl, hkey⟩
          · exact hlast hmatch
      · have h : Matches key numMatched chain _ := ih hle
        refine ⟨h.suffix.trans (List.suffix_cons _ _), ?_, h.fits, h.full,
          fun hnil hfull' ↦ .inr ?_⟩
        · rw [List.filter_cons_of_neg (by simpa using hkey), h.filter]
        · obtain rfl | hmatch := h.last hnil hfull'
          · exact absurd hfull' hfull
          · exact hlast hmatch

/-- One batch, of whose matches the first is output at once. -/
theorem joined_eq (joinType : JoinType) (key : K) (chain : List (K × V)) :
    let batch := matchTuples key 0 chain
    joined joinType key chain =
      (if batch.1.length = 0 then if joinType = .left then [none] else []
        else batch.1.map (some ·.2)) ++
        if batch.2 = [] then [] else joined joinType key batch.2 := by
  intro batch
  have h : Matches key 0 chain batch := matches_matchTuples key (Nat.zero_le _) chain
  have hfits := h.fits
  have hpos : 0 < defaultVectorCapacity := by decide
  rw [Nat.zero_add] at hfits
  by_cases hnil : batch.2 = []
  · rw [if_pos hnil, List.append_nil, joined]
    have hfilter := h.filter
    rw [hnil, List.filter_nil, List.append_nil] at hfilter
    rw [hfilter]
    by_cases hzero : batch.1.length = 0
    · rw [List.length_eq_zero_iff.mp hzero] at hfilter
      have hlast : ∀ tuple ∈ chain.getLast?, tuple.1 ≠ key := fun tuple htuple ↦ by
        simpa using List.filter_eq_nil_iff.mp hfilter tuple (List.mem_of_getLast? htuple)
      rw [if_pos hzero, List.length_eq_zero_iff.mp hzero]
      exact if_congr (and_iff_left ⟨Nat.dvd_zero _, hlast⟩) rfl rfl
    · rw [if_neg hzero, if_neg, List.append_nil]
      rintro ⟨-, hdvd, hlast⟩
      have hle := Nat.le_of_dvd (Nat.pos_of_ne_zero hzero) hdvd
      obtain rfl | ⟨tuple, htuple, hkey⟩ := h.last hnil (by omega)
      · exact hzero (congrArg List.length hfilter.symm)
      · exact hlast tuple htuple hkey
  · have hlength := h.full hnil
    rw [Nat.zero_add] at hlength
    rw [if_neg hnil, if_neg (by omega), joined, joined, h.filter]
    obtain ⟨pre, hpre⟩ := h.suffix
    rw [← hpre, List.getLast?_append_of_ne_nil _ hnil, List.map_append, List.append_assoc,
      List.length_append, hlength]
    simp only [Nat.dvd_add_right (Nat.dvd_refl _)]

/-! ## Runs -/

namespace ProbeState

variable {ht : JoinHashTable K V} {joinType : JoinType} {s s' : ProbeState K V}

/-- What is found for a key. -/
def chain (ht : JoinHashTable K V) (k : ProbeKey K) : List (K × V) :=
  ht.probe k (fun _ ↦ []) k.pos

/-- What is still to be output. -/
def owed (ht : JoinHashTable K V) (joinType : JoinType) (s : ProbeState K V) :
    List (ProbeKey K × Option V) :=
  ((s.matchedTuples.drop s.nextMatchedTupleIdx).map (some ·.2) ++
      if s.probed = [] then [] else joined joinType s.probeKey.key s.probed).map
    (Prod.mk s.probeKey) ++
  s.pulled.flatMap fun k ↦ (joined joinType k.key (chain ht k)).map (Prod.mk k)

/-- All that is output in a run. -/
def total (s : ProbeState K V) (ht : JoinHashTable K V) (joinType : JoinType) :
    List (ProbeKey K × Option V) := s.outputs ++ owed ht joinType s

/-- Only the current key has a chain. -/
def Drained (s : ProbeState K V) : Prop := ∀ pos, pos ≠ s.probeKey.pos → s.probedTuples pos = []

/-- A match. -/
theorem total_getNextJoinResult (hlt : s.nextMatchedTupleIdx < s.matchedTuples.length) :
    (s.getNextJoinResult joinType).total ht joinType = s.total ht joinType := by
  rw [getNextJoinResult, if_neg (by omega), total, total, owed, owed,
    List.drop_eq_getElem_cons hlt, List.getElem?_eq_getElem hlt]
  exact List.append_assoc _ _ _

/-- A batch with its first row. -/
theorem total_matchBatch (s : ProbeState K V) :
    (s.matchBatch.getNextJoinResult joinType).total ht joinType =
      s.outputs ++ ((joined joinType s.probeKey.key s.probed).map (Prod.mk s.probeKey) ++
        s.pulled.flatMap fun k ↦ (joined joinType k.key (chain ht k)).map (Prod.mk k)) := by
  have hprobed : s.matchBatch.probed = (matchTuples s.probeKey.key 0 s.probed).2 :=
    Function.update_self _ _ _
  have hjoined := joined_eq joinType s.probeKey.key s.probed
  by_cases hzero : (matchTuples s.probeKey.key 0 s.probed).1.length = 0
  · have hdrop : s.matchBatch.matchedTuples.drop s.matchBatch.nextMatchedTupleIdx = [] :=
      List.drop_eq_nil_of_le hzero.le
    have hnone : s.matchBatch.matchedTuples.length = 0 := hzero
    rw [getNextJoinResult, if_pos hnone, hjoined, if_pos hzero, List.map_append, List.append_assoc]
    by_cases hleft : joinType = .left
    · rw [if_pos hleft, if_pos hleft]
      change s.outputs ++ [(s.probeKey, none)] ++ owed ht joinType s.matchBatch = _
      rw [owed, hdrop, hprobed]
      exact List.append_assoc _ _ _
    · rw [if_neg hleft, if_neg hleft, total, owed, hdrop, hprobed]
      rfl
  · rw [total_getNextJoinResult (Nat.pos_of_ne_zero hzero), total, owed, hprobed, hjoined,
      if_neg hzero]
    rfl

omit [DecidableEq K] in
theorem Drained.getNextJoinResult (h : s.Drained) : (s.getNextJoinResult joinType).Drained := by
  rw [ProbeState.getNextJoinResult]
  split_ifs <;> exact h

theorem Drained.matchBatch (h : s.Drained) : s.matchBatch.Drained := fun pos hpos ↦
  (Function.update_of_ne hpos _ _).trans (h pos hpos)

/-- A turn goes on with what is owed. -/
theorem total_turn (hdrained : s.Drained) (hturn : turn ht joinType s () = some s') :
    s'.Drained ∧ s'.total ht joinType = s.total ht joinType := by
  obtain ⟨s₁, hbatch, rfl⟩ := Option.map_eq_some_iff.mp hturn
  rw [getNextBatchOfMatchedTuples] at hbatch
  split_ifs at hbatch with hnext hprobed
  · obtain rfl := Option.some.inj hbatch
    exact ⟨hdrained.getNextJoinResult, total_getNextJoinResult hnext⟩
  · obtain rfl := Option.some.inj hbatch
    refine ⟨hdrained.matchBatch.getNextJoinResult, ?_⟩
    rw [total_matchBatch, total, owed, List.drop_eq_nil_of_le (Nat.le_of_not_lt hnext),
      if_neg hprobed]
    rfl
  · rw [not_not] at hprobed
    have hnone : s.probedTuples = fun _ ↦ [] := funext fun pos ↦ by
      by_cases hpos : pos = s.probeKey.pos
      · rw [hpos]
        exact hprobed
      · exact hdrained pos hpos
    cases hpulled : s.pulled with
    | nil =>
        rw [hpulled] at hbatch
        cases hbatch
    | cons k pulled =>
        rw [hpulled, hnone] at hbatch
        obtain rfl := Option.some.inj hbatch
        refine ⟨Drained.getNextJoinResult (Drained.matchBatch fun pos hpos ↦ ?_), ?_⟩
        · change ht.probe k _ pos = []
          rw [JoinHashTable.probe]
          split_ifs
          · rfl
          · rfl
          · exact Function.update_of_ne hpos _ _
        · rw [total_matchBatch, total, owed, List.drop_eq_nil_of_le (Nat.le_of_not_lt hnext),
            if_pos hprobed, hpulled]
          rfl

omit [DecidableEq K] in
theorem fields_getNextJoinResult (joinType : JoinType) (s : ProbeState K V) :
    (s.getNextJoinResult joinType).pulled = s.pulled ∧
      (s.getNextJoinResult joinType).probed = s.probed ∧
      (s.nextMatchedTupleIdx < s.matchedTuples.length →
        (s.getNextJoinResult joinType).matchedTuples.length -
          (s.getNextJoinResult joinType).nextMatchedTupleIdx <
        s.matchedTuples.length - s.nextMatchedTupleIdx) := by
  rw [getNextJoinResult]
  split_ifs with hzero
  · exact ⟨rfl, rfl, fun h ↦ by omega⟩
  · exact ⟨rfl, rfl, fun h ↦ by omega⟩
  · exact ⟨rfl, rfl, fun h ↦ Nat.sub_succ_lt_self _ _ h⟩

theorem length_matchTuples (key : K) {chain : List (K × V)} (hne : chain ≠ []) :
    (matchTuples key 0 chain).2.length < chain.length := by
  cases chain with
  | nil => exact absurd rfl hne
  | cons tuple chain =>
      rw [matchTuples, if_neg (by decide)]
      split_ifs
      · exact Nat.lt_succ_of_le (matches_matchTuples key (by decide) chain).suffix.length_le
      · exact Nat.lt_succ_of_le (matches_matchTuples key (by decide) chain).suffix.length_le

/-- Each turn goes on in the batch, in the chain or with the child. -/
def after : ProbeState K V → ProbeState K V → Prop :=
  InvImage (Prod.Lex (· < ·) (Prod.Lex (· < ·) (· < ·))) fun s ↦
    (s.pulled.length, s.probed.length, s.matchedTuples.length - s.nextMatchedTupleIdx)

theorem after_turn (hturn : turn ht joinType s () = some s') : s'.after s := by
  obtain ⟨s₁, hbatch, rfl⟩ := Option.map_eq_some_iff.mp hturn
  obtain ⟨hpulled, hprobed, hidx⟩ := fields_getNextJoinResult joinType s₁
  rw [after, InvImage, hpulled, hprobed]
  rw [getNextBatchOfMatchedTuples] at hbatch
  split_ifs at hbatch with hnext hmore
  · obtain rfl := Option.some.inj hbatch
    exact Prod.Lex.right _ (Prod.Lex.right _ (hidx hnext))
  · obtain rfl := Option.some.inj hbatch
    refine Prod.Lex.right _ (Prod.Lex.left _ _ ?_)
    rw [show s.matchBatch.probed = _ from Function.update_self _ _ _]
    exact length_matchTuples _ hmore
  · cases hkeys : s.pulled with
    | nil =>
        rw [hkeys] at hbatch
        cases hbatch
    | cons k pulled =>
        rw [hkeys] at hbatch
        obtain rfl := Option.some.inj hbatch
        exact Prod.Lex.left _ _ (Nat.lt_succ_self _)

theorem owed_of_end (hend : turn ht joinType s () = none) : owed ht joinType s = [] := by
  rw [turn, Option.map_eq_none_iff, getNextBatchOfMatchedTuples] at hend
  split_ifs at hend with hnext hmore
  rw [not_not] at hmore
  cases hpulled : s.pulled with
  | nil =>
      rw [owed, List.drop_eq_nil_of_le (Nat.le_of_not_lt hnext), if_pos hmore, hpulled]
      rfl
  | cons k pulled =>
      rw [hpulled] at hend
      cases hend

end ProbeState

/-! ## The join -/

/-- The tuples whose keys are in the slot of a key, the last of them first. -/
def JoinHashTable.sameSlot (ht : JoinHashTable K V) (k : ProbeKey K) : List (K × V) :=
  if k.isNull then []
  else (ht.tuples.filter fun tuple ↦
    ht.getSlotIdxForHash (ht.hash tuple.1) = ht.getSlotIdxForHash (ht.hash k.key)).reverse

omit [DecidableEq K] in
theorem foldl_insertEntry (ht : JoinHashTable K V) (tuples : List (K × V))
    (slots : ℕ → List (K × V)) (slotIdx : ℕ) : tuples.foldl ht.insertEntry slots slotIdx =
      (tuples.filter fun tuple ↦ ht.getSlotIdxForHash (ht.hash tuple.1) = slotIdx).reverse ++
        slots slotIdx := by
  induction tuples generalizing slots with
  | nil => rfl
  | cons tuple tuples ih =>
      rw [List.foldl_cons, ih, List.filter_cons, JoinHashTable.insertEntry]
      by_cases hslot : ht.getSlotIdxForHash (ht.hash tuple.1) = slotIdx
      · rw [if_pos (decide_eq_true hslot), List.reverse_cons, List.append_assoc, hslot,
          Function.update_self]
        rfl
      · rw [if_neg (by simpa using hslot), Function.update_of_ne (Ne.symm hslot)]

omit [DecidableEq K] in
theorem chain_eq_sameSlot (ht : JoinHashTable K V) (k : ProbeKey K) :
    ProbeState.chain ht k = ht.sameSlot k := by
  rw [ProbeState.chain, JoinHashTable.probe, JoinHashTable.sameSlot]
  split_ifs with hempty hnull hnull
  · rfl
  · rw [List.length_eq_zero_iff.mp hempty]
    rfl
  · rfl
  · rw [Function.update_self, JoinHashTable.getTupleForHash, JoinHashTable.buildHashSlots,
      foldl_insertEntry, List.append_nil]

theorem exists_end (ht : JoinHashTable K V) (joinType : JoinType) (s : ProbeState K V) :
    ∃ turns s', run (ProbeState.turn ht joinType) s turns = some s' ∧
      ProbeState.turn ht joinType s' () = none :=
  exists_run_of_wellFounded (InvImage.wf _
    (Prod.lex (Nat.lt_wfRel) (Prod.lex Nat.lt_wfRel Nat.lt_wfRel)).wf)
    (fun _ _ hturn ↦ ProbeState.after_turn hturn) s

theorem outputs_of_end {ht : JoinHashTable K V} {joinType : JoinType} {probeKey : ProbeKey K}
    {pulled : List (ProbeKey K)} {turns : List Unit} {s : ProbeState K V}
    (hrun : run (ProbeState.turn ht joinType) { pulled, probeKey } turns = some s)
    (hend : ProbeState.turn ht joinType s () = none) :
    s.outputs = pulled.flatMap fun k ↦
      (joined joinType k.key (ht.sameSlot k)).map (Prod.mk k) := by
  have hinv := @run_invariant _ _ _ _ _ _
    (fun t : ProbeState K V ↦
      t.Drained ∧ t.total ht joinType = ProbeState.total { pulled, probeKey } ht joinType)
    (fun t _ t' h hturn ↦ (ProbeState.total_turn h.1 hturn).imp_right (·.trans h.2))
    ⟨fun _ _ ↦ rfl, rfl⟩ hrun
  have htotal := hinv.2
  rw [ProbeState.total, ProbeState.owed_of_end hend, List.append_nil] at htotal
  rw [htotal]
  exact List.flatMap_congr fun k _ ↦ by rw [chain_eq_sameSlot]

/-- Every run ends, and has then output the rows of the keys in their order: a key with each of the
tuples that have it.  A left join adds a row of nulls to a key without a match, and to one whose
matches fill their last vector while the first tuple of the slot has another key. -/
theorem outputs_of_probes (ht : JoinHashTable K V) (joinType : JoinType) (probeKey : ProbeKey K)
    (pulled : List (ProbeKey K)) (turns : List Unit) {s : ProbeState K V}
    (hrun : run (ProbeState.turn ht joinType) { pulled, probeKey } turns = some s) :
    ∃ turns' s', run (ProbeState.turn ht joinType) s turns' = some s' ∧
      ProbeState.turn ht joinType s' () = none ∧
      s'.outputs = pulled.flatMap fun k ↦
        (joined joinType k.key (ht.sameSlot k)).map (Prod.mk k) := by
  obtain ⟨turns', s', hrun', hend⟩ := exists_end ht joinType s
  exact ⟨turns', s', hrun', hend, outputs_of_end ((run_append_of_eq_some hrun).trans hrun') hend⟩

/-- Two slots. -/
def oddKeys : JoinHashTable ℕ Char := ⟨id, 1, [(1, 'a'), (3, 'b'), (1, 'c')]⟩

theorem outputs_of_probes_oddKeys :
    ∃ s, run (ProbeState.turn oddKeys .left)
        { pulled := [⟨0, 1, false⟩, ⟨1, 3, true⟩], probeKey := ⟨0, 0, true⟩ } [(), ()] = some s ∧
      ∃ turns' s', run (ProbeState.turn oddKeys .left) s turns' = some s' ∧
        ProbeState.turn oddKeys .left s' () = none ∧ s'.outputs =
          [(⟨0, 1, false⟩, some 'c'), (⟨0, 1, false⟩, some 'a'), (⟨1, 3, true⟩, none)] :=
  ⟨_, rfl, outputs_of_probes oddKeys .left ⟨0, 0, true⟩ [⟨0, 1, false⟩, ⟨1, 3, true⟩] [(), ()] rfl⟩

end Graphflow.Processor
