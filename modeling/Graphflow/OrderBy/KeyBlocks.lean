import Graphflow.OrderBy.EncodedOrder

/-!
# The key blocks

What the loops of the encoder leave in the key blocks: row after row, one tuple each, whether the
vectors are flat or not, filtered or not, and wherever a block ends.  So the order of the tuples is
the order of the rows.
-/

namespace Graphflow.OrderBy

open Lib Storage

variable {V : Type} {m m' : Memory} {p n size tupleSize : ℕ}

/-! ## Strided loops -/

/-- The address is in none of the `n` regions. -/
def OutsideRegions (tupleSize p size n b : ℕ) : Prop :=
  ∀ i < n, b < p + i * tupleSize ∨ p + i * tupleSize + size ≤ b

/-- A loop has put `entry i` into the `i`-th of `n` regions and has touched nothing else. -/
structure RegionsWritten (tupleSize p size n : ℕ) (entry : ℕ → List UInt8) (m m' : Memory) :
    Prop where
  read : ∀ i < n, readAt m' (p + i * tupleSize) size = entry i
  frame : ∀ b, OutsideRegions tupleSize p size n b → m' b = m b

theorem mul_add_le_of_lt {i j k : ℕ} (h : i < j) : i * k + k ≤ j * k := by
  rw [← Nat.succ_mul]
  exact Nat.mul_le_mul_right k h

/-- A loop that replaces each region by something made of the region. -/
theorem regionsWritten_foldl (hsize : size ≤ tupleSize) {f : ℕ → List UInt8 → List UInt8}
    (hf : ∀ i < n, (f i (readAt m (p + i * tupleSize) size)).length = size) :
    RegionsWritten tupleSize p size n
      (fun i ↦ f i (readAt m (p + i * tupleSize) size)) m
      ((List.range n).foldl (fun m i ↦ overwrite m (p + i * tupleSize)
        (f i (readAt m (p + i * tupleSize) size))) m) := by
  induction n with
  | zero => exact ⟨fun i hi ↦ absurd hi (Nat.not_lt_zero i), fun b _ ↦ rfl⟩
  | succ n ih =>
      obtain ⟨hread, hframe⟩ := ih fun i hi ↦ hf i (Nat.lt_succ_of_lt hi)
      rw [List.range_succ, List.foldl_append, List.foldl_cons, List.foldl_nil]
      set written := (List.range n).foldl (fun m i ↦ overwrite m (p + i * tupleSize)
        (f i (readAt m (p + i * tupleSize) size))) m with hwritten
      have hregion : readAt written (p + n * tupleSize) size =
          readAt m (p + n * tupleSize) size := by
        apply readAt_congr
        intro b hle hlt
        apply hframe b
        intro i hi
        have hnext := mul_add_le_of_lt (k := tupleSize) hi
        omega
      have hlength := hf n (Nat.lt_succ_self n)
      rw [hregion]
      refine ⟨?_, ?_⟩
      · intro i hi
        rcases Nat.lt_succ_iff_lt_or_eq.mp hi with hlt | rfl
        · have hnext := mul_add_le_of_lt (k := tupleSize) hlt
          rw [readAt_overwrite_of_disjoint (by omega), hread i hlt]
        · have hself := readAt_overwrite written (p + i * tupleSize)
            (f i (readAt m (p + i * tupleSize) size))
          rw [hlength] at hself
          exact hself
      · intro b hb
        rw [overwrite_of_outside (by rw [hlength]; exact hb n (Nat.lt_succ_self n))]
        exact hframe b fun i hi ↦ hb i (Nat.lt_succ_of_lt hi)

theorem regionsWritten_writeEntries {entry : ℕ → List UInt8} (hsize : size ≤ tupleSize)
    (hentry : ∀ i < n, (entry i).length = size) :
    RegionsWritten tupleSize p size n entry m
      (writeEntries tupleSize m p entry n) :=
  regionsWritten_foldl (f := fun i _ ↦ entry i) hsize hentry

theorem RegionsWritten.congr {entry entry' : ℕ → List UInt8}
    (h : RegionsWritten tupleSize p size n entry m m')
    (hentry : ∀ i < n, entry i = entry' i) :
    RegionsWritten tupleSize p size n entry' m m' :=
  ⟨fun i hi ↦ (h.read i hi).trans (hentry i hi), h.frame⟩

/-- A second loop over the same regions. -/
theorem RegionsWritten.trans {m'' : Memory} {entry : ℕ → List UInt8}
    {f : ℕ → List UInt8 → List UInt8} (h : RegionsWritten tupleSize p size n entry m m')
    (h' : RegionsWritten tupleSize p size n
      (fun i ↦ f i (readAt m' (p + i * tupleSize) size)) m' m'') :
    RegionsWritten tupleSize p size n (fun i ↦ f i (entry i)) m m'' where
  read i hi := by rw [h'.read i hi, h.read i hi]
  frame b hb := (h'.frame b hb).trans (h.frame b hb)

/-- Two loops over regions that stand side by side in each tuple. -/
theorem RegionsWritten.append {m'' : Memory} {size' : ℕ} {entry entry' : ℕ → List UInt8}
    (h : RegionsWritten tupleSize p size n entry m m')
    (h' : RegionsWritten tupleSize (p + size) size' n entry' m' m'')
    (hsize : size + size' ≤ tupleSize) :
    RegionsWritten tupleSize p (size + size') n (fun i ↦ entry i ++ entry' i) m m'' where
  read i hi := by
    have hleft : readAt m'' (p + i * tupleSize) size =
        readAt m' (p + i * tupleSize) size := by
      apply readAt_congr
      intro b hle hlt
      apply h'.frame b
      intro j hj
      rcases Nat.lt_trichotomy i j with hij | rfl | hij
      · have hnext := mul_add_le_of_lt (k := tupleSize) hij
        omega
      · omega
      · have hnext := mul_add_le_of_lt (k := tupleSize) hij
        omega
    have hright := h'.read i hi
    rw [Nat.add_right_comm] at hright
    rw [readAt_add, hleft, h.read i hi, hright]
  frame b hb := by
    rw [h'.frame b fun i hi ↦ ?_, h.frame b fun i hi ↦ ?_]
    · rcases hb i hi with hlt | hle <;> omega
    · rcases hb i hi with hlt | hle <;> omega

/-- Two loops, the second over the tuples behind those of the first. -/
theorem RegionsWritten.concat {m'' : Memory} {k : ℕ} {entry : ℕ → List UInt8}
    (h : RegionsWritten tupleSize p size k entry m m')
    (h' : RegionsWritten tupleSize (p + k * tupleSize) size (n - k)
      (fun i ↦ entry (k + i)) m' m'')
    (hsize : size ≤ tupleSize) (hk : k ≤ n) :
    RegionsWritten tupleSize p size n entry m m'' where
  read i hi := by
    rcases Nat.lt_or_ge i k with hlt | hge
    · rw [← h.read i hlt]
      apply readAt_congr
      intro b hle hb
      apply h'.frame b
      intro j _
      have hnext := mul_add_le_of_lt (k := tupleSize) hlt
      omega
    · obtain ⟨j, rfl⟩ := Nat.exists_eq_add_of_le hge
      rw [← h'.read j (by omega), Nat.add_mul, Nat.add_assoc]
  frame b hb := by
    rw [h'.frame b fun i hi ↦ ?_, h.frame b fun i hi ↦ hb i (by omega)]
    have hlater := hb (k + i) (by omega)
    rw [Nat.add_mul] at hlater
    omega

/-! ## Vectors -/

variable {swapBytes : Bool} {column : KeyColumn} {columns : List KeyColumn}

/-- The entry of a vector: the current one of a flat vector, else the `i`-th that is selected. -/
def ValueVector.entry {dataType : KeyType} (vector : ValueVector V dataType) (i : ℕ) :
    Option (dataType.Data V) :=
  let pos := vector.state.selVector.position (vector.state.currIdx.getD i)
  if vector.nullMask.isNull pos then none else some (vector.values pos)

/-- The rows that the vectors of a call hold. -/
def KeyVectors.row : (columns : List KeyColumn) → KeyVectors V columns → ℕ → KeyRow V columns
  | [], _, _ => ()
  | _ :: columns, vectors, i => (vectors.1.entry i, KeyVectors.row columns vectors.2 i)

theorem encodeNullable_entry {dataType : KeyType} (vector : ValueVector V dataType) (i : ℕ) :
    encodeNullable swapBytes (vector.entry i) =
      let pos := vector.state.selVector.position (vector.state.currIdx.getD i)
      if vector.nullMask.isNull pos then encodeNull dataType
      else encodeNonNull swapBytes dataType (vector.values pos) := by
  simp only [ValueVector.entry]
  split_ifs <;> rfl

theorem regionsWritten_encodeFlatVector {dataType : KeyType} {vector : ValueVector V dataType}
    {currIdx : ℕ} (hflat : vector.state.currIdx = some currIdx) :
    RegionsWritten tupleSize p dataType.getEncodingSize 1
      (fun i ↦ encodeNullable swapBytes (vector.entry i)) m
      (encodeFlatVector swapBytes vector m p currIdx) := by
  have hentry : encodeNullable swapBytes (vector.entry 0) =
      if vector.nullMask.isNull (vector.state.selVector.position currIdx) then encodeNull dataType
      else encodeNonNull swapBytes dataType
        (vector.values (vector.state.selVector.position currIdx)) := by
    rw [encodeNullable_entry, hflat]
    rfl
  have hlength := length_encodeNullable swapBytes (vector.entry 0)
  rw [encodeFlatVector, ← hentry]
  refine ⟨?_, ?_⟩
  · intro i hi
    obtain rfl : i = 0 := by omega
    rw [Nat.zero_mul, Nat.add_zero]
    have hself := readAt_overwrite m p (encodeNullable swapBytes (vector.entry 0))
    rw [hlength] at hself
    exact hself
  · intro b hb
    have hout := hb 0 Nat.zero_lt_one
    rw [overwrite_of_outside (by rw [hlength]; omega)]

/-- The four loops over an unflat vector write the same. -/
theorem regionsWritten_encodeUnflatVector {dataType : KeyType} {vector : ValueVector V dataType}
    {encodedTuples : ℕ} (hunflat : vector.state.currIdx = none)
    (hsize : dataType.getEncodingSize ≤ tupleSize) :
    RegionsWritten tupleSize p dataType.getEncodingSize n
      (fun i ↦ encodeNullable swapBytes (vector.entry (encodedTuples + i))) m
      (encodeUnflatVector swapBytes tupleSize vector m p encodedTuples n) := by
  have hentry : ∀ i, encodeNullable swapBytes (vector.entry i) =
      if vector.nullMask.isNull (vector.state.selVector.position i) then encodeNull dataType
      else encodeNonNull swapBytes dataType
        (vector.values (vector.state.selVector.position i)) := by
    intro i
    rw [encodeNullable_entry, hunflat]
    rfl
  have hwrite : ∀ entry : ℕ → List UInt8,
      (∀ i, entry i = encodeNullable swapBytes (vector.entry (encodedTuples + i))) →
      RegionsWritten tupleSize p dataType.getEncodingSize n
        (fun i ↦ encodeNullable swapBytes (vector.entry (encodedTuples + i))) m
        (writeEntries tupleSize m p entry n) := by
    intro entry heq
    obtain rfl : entry = fun i ↦ encodeNullable swapBytes (vector.entry (encodedTuples + i)) :=
      funext heq
    exact regionsWritten_writeEntries hsize fun i _ ↦ length_encodeNullable _ _
  have hunfiltered : vector.state.selVector.isUnfiltered = true →
      ∀ i, vector.state.selVector.position i = i := by
    intro h i
    rw [SelectionVector.isUnfiltered, Option.isNone_iff_eq_none] at h
    rw [SelectionVector.position, h]
    rfl
  have hnoNulls : (!vector.nullMask.mayContainNulls) = true → ∀ pos,
      vector.nullMask.isNull pos = false := by
    intro h
    exact vector.nullMask.isNull_eq_false (by simpa using h)
  rw [encodeUnflatVector]
  split_ifs with hunf hno hno
  · apply hwrite
    intro i
    rw [hentry, hnoNulls hno, hunfiltered hunf]
    rfl
  · apply hwrite
    intro i
    rw [hentry, hunfiltered hunf]
  · apply hwrite
    intro i
    rw [hentry, hnoNulls hno, Nat.add_comm]
    rfl
  · apply hwrite
    intro i
    rw [hentry, Nat.add_comm]

/-- A flat vector is only walked for a single entry, the first one. -/
def Walkable {dataType : KeyType} (vector : ValueVector V dataType) (encodedTuples n : ℕ) : Prop :=
  vector.state.currIdx = none ∨ encodedTuples = 0 ∧ n = 1

theorem regionsWritten_flipBytesIfNecessary {entry : ℕ → List UInt8}
    (h : RegionsWritten tupleSize p column.dataType.getEncodingSize n entry m m')
    (hsize : column.dataType.getEncodingSize ≤ tupleSize) :
    RegionsWritten tupleSize p column.dataType.getEncodingSize n
      (fun i ↦ if column.isAscOrder then entry i else (entry i).map (~~~·)) m
      (flipBytesIfNecessary tupleSize column m' p n) := by
  rw [flipBytesIfNecessary]
  cases column.isAscOrder with
  | true => exact h
  | false =>
      apply h.trans (f := fun _ bytes ↦ bytes.map (~~~·))
      apply regionsWritten_foldl (f := fun _ bytes ↦ bytes.map (~~~·)) hsize
      intro i _
      rw [List.length_map, length_readAt]

theorem regionsWritten_encodeVector {vector : ValueVector V column.dataType} {encodedTuples : ℕ}
    (hwalk : Walkable vector encodedTuples n)
    (hsize : column.dataType.getEncodingSize ≤ tupleSize) :
    RegionsWritten tupleSize p column.dataType.getEncodingSize n
      (fun i ↦ encodeEntry swapBytes column (vector.entry (encodedTuples + i))) m
      (encodeVector swapBytes tupleSize column vector m p encodedTuples n) := by
  have hflip := fun m' ↦ @regionsWritten_flipBytesIfNecessary m m' p n tupleSize column
    fun i ↦ encodeNullable swapBytes (vector.entry (encodedTuples + i))
  apply hflip _ ?_ hsize
  rcases hwalk with hunflat | ⟨rfl, rfl⟩
  · rw [hunflat]
    exact regionsWritten_encodeUnflatVector hunflat hsize
  · cases hflat : vector.state.currIdx with
    | none => exact regionsWritten_encodeUnflatVector hflat hsize
    | some currIdx =>
        apply (regionsWritten_encodeFlatVector hflat).congr
        intro i _
        rw [Nat.zero_add]

/-- All vectors of a call can be walked for the entries that are encoded in one turn. -/
def KeyVectors.Walkable : (columns : List KeyColumn) → KeyVectors V columns → ℕ → ℕ → Prop
  | [], _, _, _ => True
  | _ :: columns, vectors, encodedTuples, n =>
      OrderBy.Walkable vectors.1 encodedTuples n ∧
        KeyVectors.Walkable columns vectors.2 encodedTuples n

theorem regionsWritten_encodeVectors {vectors : KeyVectors V columns} {encodedTuples : ℕ}
    (hwalk : KeyVectors.Walkable columns vectors encodedTuples n)
    (hsize : numBytesOfKeys columns ≤ tupleSize) :
    RegionsWritten tupleSize p (numBytesOfKeys columns) n
      (fun i ↦ encodeRow swapBytes columns (KeyVectors.row columns vectors (encodedTuples + i))) m
      (encodeVectors swapBytes tupleSize columns vectors m p encodedTuples n) := by
  induction columns generalizing m p with
  | nil => exact ⟨fun _ _ ↦ rfl, fun _ _ ↦ rfl⟩
  | cons column columns ih =>
      have hsum : numBytesOfKeys (column :: columns) =
        column.dataType.getEncodingSize + numBytesOfKeys columns := rfl
      rw [hsum] at hsize ⊢
      exact (regionsWritten_encodeVector hwalk.1 (by omega)).append (ih hwalk.2 (by omega)) hsize

/-! ## Tuples -/

namespace OrderByKeyEncoder

variable {e e' : OrderByKeyEncoder} {total : ℕ}

/-- The encoder stands at the place of the factorized table where the next row goes. -/
structure Counts (e : OrderByKeyEncoder) (total : ℕ) : Prop where
  ftBlockIdx : e.ftBlockIdx = total / e.numTuplesPerBlockInFT
  ftBlockOffset : e.ftBlockOffset = total % e.numTuplesPerBlockInFT
  pos : 0 < e.numTuplesPerBlockInFT

/-- The same table and the same blocks of it. -/
structure SameTable (e e' : OrderByKeyEncoder) : Prop where
  ftIdx : e'.ftIdx = e.ftIdx
  numTuplesPerBlockInFT : e'.numTuplesPerBlockInFT = e.numTuplesPerBlockInFT
  swapBytes : e'.swapBytes = e.swapBytes

theorem SameTable.refl (e : OrderByKeyEncoder) : SameTable e e := ⟨rfl, rfl, rfl⟩

theorem SameTable.trans {e'' : OrderByKeyEncoder} (h : SameTable e e') (h' : SameTable e' e'') :
    SameTable e e'' :=
  ⟨h'.ftIdx.trans h.ftIdx, h'.numTuplesPerBlockInFT.trans h.numTuplesPerBlockInFT,
    h'.swapBytes.trans h.swapBytes⟩

/-- What is written behind the key of the row that is the `k`-th of the table. -/
def rowInfo (e : OrderByKeyEncoder) (k : ℕ) : List UInt8 :=
  tupleInfo e.ftIdx (k / e.numTuplesPerBlockInFT) (k % e.numTuplesPerBlockInFT)

theorem SameTable.rowInfo (h : SameTable e e') (k : ℕ) : e'.rowInfo k = e.rowInfo k := by
  rw [OrderByKeyEncoder.rowInfo, OrderByKeyEncoder.rowInfo, h.ftIdx, h.numTuplesPerBlockInFT]

theorem length_tupleInfo (ftIdx : UInt8) (ftBlockIdx ftBlockOffset : ℕ) :
    (tupleInfo ftIdx ftBlockIdx ftBlockOffset).length = 8 := by
  rw [tupleInfo, List.length_append, List.length_set, length_littleEndian, length_littleEndian]

/-- Moving on by tuples that all lie in the current block of the table. -/
theorem div_mod_add_of_le {t n N : ℕ} (hn : t % N + n ≤ N) (i : ℕ) (hi : i < n) :
    (t + i) / N = t / N ∧ (t + i) % N = t % N + i := by
  have hlt : t % N + i < N := by omega
  have hdiv := Nat.div_add_mod t N
  have hsum : t + i = N * (t / N) + (t % N + i) := by omega
  rw [hsum, Nat.mul_add_div (by omega), Nat.div_eq_of_lt hlt, Nat.mul_add_mod,
    Nat.mod_eq_of_lt hlt]
  exact ⟨rfl, rfl⟩

/-- The place behind the next `b` rows, which lie in the current block of the table. -/
theorem counts_of_le {b : ℕ} (hcounts : Counts e total)
    (hb : e.ftBlockOffset + b ≤ e.numTuplesPerBlockInFT) :
    Counts (if e.ftBlockOffset + b = e.numTuplesPerBlockInFT then
        { e with ftBlockIdx := e.ftBlockIdx + 1, ftBlockOffset := 0 }
      else { e with ftBlockOffset := e.ftBlockOffset + b }) (total + b) := by
  obtain ⟨hidx, hoffset, hpos⟩ := hcounts
  have hdiv := Nat.div_add_mod total e.numTuplesPerBlockInFT
  rw [hoffset] at hb
  split_ifs with hfull
  · rw [hoffset] at hfull
    have hsum : total + b = e.numTuplesPerBlockInFT * (total / e.numTuplesPerBlockInFT + 1) := by
      rw [Nat.mul_add_one]
      omega
    refine ⟨?_, ?_, hpos⟩
    · simp only [hidx, hsum, Nat.mul_div_cancel_left _ hpos]
    · simp only [hsum, Nat.mul_mod_right]
  · rw [hoffset] at hfull
    have hnext : total % e.numTuplesPerBlockInFT + (b + 1) ≤ e.numTuplesPerBlockInFT := by omega
    obtain ⟨hdiv, hmod⟩ := div_mod_add_of_le hnext b (Nat.lt_succ_self b)
    exact ⟨hidx.trans hdiv.symm, (congrArg (· + b) hoffset).trans hmod.symm, hpos⟩

theorem encodeFTIdx_spec (hcounts : Counts e total) (hsize : 8 ≤ tupleSize) :
    RegionsWritten tupleSize p 8 n (fun i ↦ e.rowInfo (total + i)) m
      (encodeFTIdx tupleSize e m p n).1 ∧
    Counts (encodeFTIdx tupleSize e m p n).2 (total + n) ∧
    SameTable e (encodeFTIdx tupleSize e m p n).2 ∧
    (encodeFTIdx tupleSize e m p n).2.keyBlocks = e.keyBlocks := by
  induction n using Nat.strong_induction_on generalizing e m p total with
  | _ n ih =>
      obtain ⟨hidx, hoffset, hpos⟩ := hcounts
      have hlt : total % e.numTuplesPerBlockInFT < e.numTuplesPerBlockInFT := Nat.mod_lt _ hpos
      rw [encodeFTIdx]
      by_cases hn : 0 < min n (e.numTuplesPerBlockInFT - e.ftBlockOffset)
      · simp only [hn, if_true]
        set b := min n (e.numTuplesPerBlockInFT - e.ftBlockOffset) with hb
        have hfits : e.ftBlockOffset + b ≤ e.numTuplesPerBlockInFT := by omega
        have hmoved := counts_of_le ⟨hidx, hoffset, hpos⟩ hfits
        set moved := if e.ftBlockOffset + b = e.numTuplesPerBlockInFT then
            { e with ftBlockIdx := e.ftBlockIdx + 1, ftBlockOffset := 0 }
          else { e with ftBlockOffset := e.ftBlockOffset + b } with hmovedDef
        have hsame : SameTable e moved := by
          rw [hmovedDef]
          split_ifs <;> exact ⟨rfl, rfl, rfl⟩
        have hkeyBlocks : moved.keyBlocks = e.keyBlocks := by
          rw [hmovedDef]
          split_ifs <;> rfl
        have hwritten : RegionsWritten tupleSize p 8 b (fun i ↦ e.rowInfo (total + i)) m
            (writeEntries tupleSize m p
              (fun i ↦ tupleInfo e.ftIdx e.ftBlockIdx (e.ftBlockOffset + i)) b) := by
          apply (regionsWritten_writeEntries hsize fun i _ ↦ length_tupleInfo _ _ _).congr
          intro i hi
          obtain ⟨hdiv, hmod⟩ := div_mod_add_of_le (hoffset ▸ hfits) i hi
          rw [rowInfo, hdiv, hmod, hidx, hoffset]
        obtain ⟨hrest, hcounts, htable, hblocks⟩ := @ih (n - b) (by omega)
          (writeEntries tupleSize m p
            (fun i ↦ tupleInfo e.ftIdx e.ftBlockIdx (e.ftBlockOffset + i)) b)
          (p + b * tupleSize) moved (total + b) hmoved
        refine ⟨hwritten.concat (hrest.congr ?_) hsize (by omega), ?_, hsame.trans htable,
          hblocks.trans hkeyBlocks⟩
        · intro i _
          rw [hsame.rowInfo, Nat.add_assoc]
        · rw [Nat.add_assoc, Nat.add_sub_cancel' (by omega)] at hcounts
          exact hcounts
      · have hzero : n = 0 := by omega
        subst hzero
        rw [if_neg hn]
        exact ⟨⟨fun i hi ↦ absurd hi (Nat.not_lt_zero i), fun b _ ↦ rfl⟩, ⟨hidx, hoffset, hpos⟩,
          SameTable.refl e, rfl⟩

end OrderByKeyEncoder

def DataBlock.tuples (tupleSize : ℕ) (block : DataBlock) : List (List UInt8) :=
  (List.range block.numTuples).map fun i ↦
    readAt block.data (i * tupleSize) tupleSize

/-- Writing behind the tuples of a block. -/
theorem DataBlock.tuples_append {t : ℕ} {data data' : Memory} {entry : ℕ → List UInt8}
    (h : RegionsWritten tupleSize (t * tupleSize) tupleSize n entry data data') :
    DataBlock.tuples tupleSize ⟨t + n, data'⟩ =
      DataBlock.tuples tupleSize ⟨t, data⟩ ++ (List.range n).map entry := by
  simp only [DataBlock.tuples, List.range_add, List.map_append, List.map_map]
  congr 1
  · apply List.map_congr_left
    intro i hi
    apply readAt_congr
    intro b _ hlt
    apply h.frame b
    intro j _
    have hnext := mul_add_le_of_lt (k := tupleSize) (List.mem_range.mp hi)
    omega
  · apply List.map_congr_left
    intro i hi
    rw [Function.comp_apply, Nat.add_mul]
    exact h.read i (List.mem_range.mp hi)

namespace OrderByKeyEncoder

variable {vectors : KeyVectors V columns} {e e' : OrderByKeyEncoder} {total encodedTuples : ℕ}

/-- All tuples of the key blocks, one block after the other. -/
def tuples (columns : List KeyColumn) (e : OrderByKeyEncoder) : List (List UInt8) :=
  e.getKeyBlocks.flatMap (DataBlock.tuples (numBytesPerTuple columns))

/-- The tuple of the row that is the `k`-th of the factorized table. -/
def encodeTuple (e : OrderByKeyEncoder) (columns : List KeyColumn) (k : ℕ)
    (row : KeyRow V columns) :
    List UInt8 :=
  encodeRow e.swapBytes columns row ++ e.rowInfo k

theorem SameTable.encodeTuple (h : SameTable e e') (k : ℕ) (row : KeyRow V columns) :
    e'.encodeTuple columns k row = e.encodeTuple columns k row := by
  rw [OrderByKeyEncoder.encodeTuple, OrderByKeyEncoder.encodeTuple, h.rowInfo, h.swapBytes]

/-- The encoder goes on to `e'` by putting the tuples behind its own. -/
structure Encodes (columns : List KeyColumn) (e e' : OrderByKeyEncoder) (total n : ℕ)
    (tuple : ℕ → List UInt8) : Prop where
  tuples : e'.tuples columns = e.tuples columns ++ (List.range n).map tuple
  counts : Counts e' (total + n)
  sameTable : SameTable e e'
  numTuples_le : e'.back.numTuples ≤ maxNumTuplesPerBlock columns

theorem encodeBatch_spec (hcounts : Counts e total)
    (hwalk : KeyVectors.Walkable columns vectors encodedTuples n)
    (hfits : e.back.numTuples + n ≤ maxNumTuplesPerBlock columns) :
    Encodes columns e (encodeBatch columns vectors e encodedTuples n) total n
      (fun i ↦ e.encodeTuple columns (total + i)
        (KeyVectors.row columns vectors (encodedTuples + i))) := by
  have hkeys := @regionsWritten_encodeVectors V e.back.data
    (e.back.numTuples * numBytesPerTuple columns) n (numBytesPerTuple columns) e.swapBytes columns
    vectors encodedTuples hwalk (Nat.le_add_right _ _)
  obtain ⟨hinfo, hcounts', hsame, hblocks⟩ := @encodeFTIdx_spec
    (encodeVectors e.swapBytes (numBytesPerTuple columns) columns vectors e.back.data
      (e.back.numTuples * numBytesPerTuple columns) encodedTuples n)
    (e.back.numTuples * numBytesPerTuple columns + numBytesOfKeys columns) n
    (numBytesPerTuple columns) e total hcounts (Nat.le_add_left _ _)
  have hwritten := DataBlock.tuples_append (hkeys.append hinfo le_rfl)
  refine ⟨?_, ?_, ?_, hfits⟩
  · simp only [tuples, getKeyBlocks, List.flatMap_append, List.flatMap_singleton, encodeBatch]
    rw [hblocks, List.append_assoc]
    exact congrArg _ hwritten
  · exact ⟨hcounts'.ftBlockIdx, hcounts'.ftBlockOffset, hcounts'.pos⟩
  · exact ⟨hsame.ftIdx, hsame.numTuplesPerBlockInFT, hsame.swapBytes⟩

theorem allocateMemoryIfFull_spec (hcounts : Counts e total)
    (hmax : 0 < maxNumTuplesPerBlock columns)
    (hfits : e.back.numTuples ≤ maxNumTuplesPerBlock columns) :
    (allocateMemoryIfFull columns e).tuples columns = e.tuples columns ∧
      Counts (allocateMemoryIfFull columns e) total ∧
      SameTable e (allocateMemoryIfFull columns e) ∧
      (allocateMemoryIfFull columns e).back.numTuples < maxNumTuplesPerBlock columns := by
  rw [allocateMemoryIfFull]
  split_ifs with hfull
  · refine ⟨?_, ⟨hcounts.ftBlockIdx, hcounts.ftBlockOffset, hcounts.pos⟩, ⟨rfl, rfl, rfl⟩, hmax⟩
    simp only [tuples, getKeyBlocks, List.flatMap_append, List.flatMap_singleton]
    exact List.append_nil _
  · exact ⟨rfl, hcounts, SameTable.refl e, Nat.lt_of_le_of_ne hfits hfull⟩

theorem encodeLoop_spec (hcounts : Counts e total) (hmax : 0 < maxNumTuplesPerBlock columns)
    (hfits : e.back.numTuples ≤ maxNumTuplesPerBlock columns)
    (hwalk : ∀ i k, encodedTuples ≤ i → 0 < k → i + k ≤ encodedTuples + n →
      KeyVectors.Walkable columns vectors i k) :
    Encodes columns e (encodeLoop columns vectors e encodedTuples n) total n
      (fun i ↦ e.encodeTuple columns (total + i)
        (KeyVectors.row columns vectors (encodedTuples + i))) := by
  induction n using Nat.strong_induction_on generalizing e total encodedTuples with
  | _ n ih =>
      rw [encodeLoop]
      by_cases hn : 0 < n
      · obtain ⟨htuples, hcounts₁, hsame₁, hlt⟩ := allocateMemoryIfFull_spec hcounts hmax hfits
        set allocated := allocateMemoryIfFull columns e
        set k := min n (maxNumTuplesPerBlock columns - allocated.back.numTuples) with hk
        have hpos : 0 < k := by omega
        rw [if_pos hn]
        simp only [← hk, hpos, if_true]
        have hbatch := encodeBatch_spec hcounts₁ (hwalk encodedTuples k le_rfl hpos (by omega))
          (by omega)
        have hrest := @ih (n - k) (by omega) _ (total + k) (encodedTuples + k) hbatch.counts
          hbatch.numTuples_le fun i j hle hj hij ↦ hwalk i j (by omega) hj (by omega)
        refine ⟨?_, ?_, hsame₁.trans (hbatch.sameTable.trans hrest.sameTable),
          hrest.numTuples_le⟩
        · rw [hrest.tuples, hbatch.tuples, htuples, List.append_assoc]
          have hsplit : List.range n = List.range k ++ (List.range (n - k)).map (k + ·) := by
            rw [← List.range_add, Nat.add_sub_cancel' (by omega)]
          rw [hsplit, List.map_append, List.map_map]
          congr 2
          · apply List.map_congr_left
            intro i _
            rw [hsame₁.encodeTuple]
          · apply List.map_congr_left
            intro i _
            rw [hbatch.sameTable.encodeTuple, hsame₁.encodeTuple, Function.comp_apply,
              Nat.add_assoc, Nat.add_assoc]
        · have hlast := hrest.counts
          rw [Nat.add_assoc, Nat.add_sub_cancel' (by omega)] at hlast
          exact hlast
      · obtain rfl : n = 0 := by omega
        rw [if_neg hn]
        exact ⟨(List.append_nil _).symm, hcounts, SameTable.refl e, hfits⟩

end OrderByKeyEncoder

/-! ## Calls -/

def KeyVectors.AllUnflat : (columns : List KeyColumn) → KeyVectors V columns → Prop
  | [], _ => True
  | _ :: columns, vectors =>
      vectors.1.state.currIdx = none ∧ KeyVectors.AllUnflat columns vectors.2

/-- The planner leaves keys unflat only if they are all in the one chunk that there is. -/
def KeyVectors.SameShape (columns : List KeyColumn) (vectors : KeyVectors V columns) : Prop :=
  KeyVectors.AllUnflat columns vectors ∨ OrderByKeyEncoder.numEntries columns vectors ≤ 1

def KeyVectors.rows (columns : List KeyColumn) (vectors : KeyVectors V columns) :
    List (KeyRow V columns) :=
  (List.range (OrderByKeyEncoder.numEntries columns vectors)).map (KeyVectors.row columns vectors)

variable {vectors : KeyVectors V columns}

theorem KeyVectors.AllUnflat.walkable (h : KeyVectors.AllUnflat columns vectors) (i k : ℕ) :
    KeyVectors.Walkable columns vectors i k := by
  induction columns with
  | nil => trivial
  | cons column columns ih => exact ⟨Or.inl h.1, ih h.2⟩

theorem KeyVectors.walkable_one : KeyVectors.Walkable columns vectors 0 1 := by
  induction columns with
  | nil => trivial
  | cons column columns ih => exact ⟨Or.inr ⟨rfl, rfl⟩, ih⟩

namespace OrderByKeyEncoder

variable {e e' : OrderByKeyEncoder} {total : ℕ}

theorem encodeKeys_spec (hcounts : Counts e total) (hmax : 0 < maxNumTuplesPerBlock columns)
    (hfits : e.back.numTuples ≤ maxNumTuplesPerBlock columns)
    (hshape : KeyVectors.SameShape columns vectors) :
    Encodes columns e (encodeKeys columns e vectors) total (numEntries columns vectors)
      (fun i ↦ e.encodeTuple columns (total + i) (KeyVectors.row columns vectors i)) := by
  have hwalk : ∀ i k, 0 ≤ i → 0 < k → i + k ≤ 0 + numEntries columns vectors →
      KeyVectors.Walkable columns vectors i k := by
    intro i k _ hk hik
    rcases hshape with hunflat | hle
    · exact hunflat.walkable i k
    · obtain rfl : i = 0 := by omega
      obtain rfl : k = 1 := by omega
      exact KeyVectors.walkable_one
  have hloop := encodeLoop_spec hcounts hmax hfits hwalk
  simp only [Nat.zero_add] at hloop
  exact hloop

/-- The rows of a sequence of calls become tuples in the same order. -/
theorem encodeKeys_run {batches : List (KeyVectors V columns)} (hcounts : Counts e total)
    (hmax : 0 < maxNumTuplesPerBlock columns)
    (hfits : e.back.numTuples ≤ maxNumTuplesPerBlock columns)
    (hshape : ∀ vectors ∈ batches, KeyVectors.SameShape columns vectors) :
    (batches.foldl (encodeKeys columns) e).tuples columns = e.tuples columns ++
      (batches.flatMap (KeyVectors.rows columns)).mapIdx fun k row ↦
        e.encodeTuple columns (total + k) row := by
  induction batches generalizing e total with
  | nil => exact (List.append_nil _).symm
  | cons vectors batches ih =>
      obtain ⟨htuples, hcounts', hsame, hfits'⟩ := encodeKeys_spec hcounts hmax hfits
        (hshape vectors List.mem_cons_self)
      have hrest := ih hcounts' hfits' fun vectors hmem ↦
        hshape vectors (List.mem_cons_of_mem _ hmem)
      have hrows : (KeyVectors.rows columns vectors).mapIdx
          (fun k row ↦ e.encodeTuple columns (total + k) row) =
          (List.range (numEntries columns vectors)).map
            fun i ↦ e.encodeTuple columns (total + i) (KeyVectors.row columns vectors i) := by
        apply List.ext_getElem (by simp [KeyVectors.rows])
        intro i hi hi'
        simp [KeyVectors.rows]
      have hlength : (KeyVectors.rows columns vectors).length = numEntries columns vectors := by
        rw [KeyVectors.rows, List.length_map, List.length_range]
      rw [List.foldl_cons, hrest, htuples, List.flatMap_cons, List.mapIdx_append, hrows,
        List.append_assoc, hlength]
      congr 3
      funext k row
      rw [hsame.encodeTuple, Nat.add_assoc, Nat.add_comm k]

theorem counts_create {ftIdx : UInt8} {numTuplesPerBlockInFT : ℕ}
    (hcreate : create columns ftIdx numTuplesPerBlockInFT = .ok e)
    (hpos : 0 < numTuplesPerBlockInFT) :
    Counts e 0 ∧ 0 < maxNumTuplesPerBlock columns ∧ e.tuples columns = [] ∧
      e.back.numTuples = 0 ∧ e.swapBytes = true := by
  simp only [create] at hcreate
  split_ifs at hcreate with hmax hzero
  obtain rfl := Except.ok.inj hcreate
  refine ⟨⟨?_, ?_, hpos⟩, Nat.pos_of_ne_zero hzero, rfl, rfl, rfl⟩
  · exact (Nat.zero_div _).symm
  · exact (Nat.zero_mod _).symm

end OrderByKeyEncoder

/-- Each column has the same bytes in both keys exactly when its values tie, or are long strings
with the same first characters. -/
def ColumnsReflected (compareUnstructured : V → V → Ordering) :
    (columns : List KeyColumn) → KeyRow V columns → KeyRow V columns → List UInt8 →
      List UInt8 → Prop
  | [], _, _, _, _ => True
  | column :: columns, l, r, lKey, rKey =>
      let size := column.dataType.getEncodingSize
      (lKey.take size = rKey.take size ↔
        compareColumn compareUnstructured column l.1 r.1 = .eq ∨ EntriesTie column l.1 r.1) ∧
      ColumnsReflected compareUnstructured columns l.2 r.2 (lKey.drop size) (rKey.drop size)

theorem columnsReflected_encodeRow {compareUnstructured : V → V → Ordering}
    {l r : KeyRow V columns} (hl : RowEncodable columns l) (hr : RowEncodable columns r) :
    ColumnsReflected compareUnstructured columns l r (encodeRow true columns l)
      (encodeRow true columns r) := by
  induction columns with
  | nil => trivial
  | cons column columns ih =>
      simp only [encodeRow, ColumnsReflected]
      have htake : ∀ value : Option (column.dataType.Data V), ∀ bytes,
          (encodeEntry true column value ++ bytes).take column.dataType.getEncodingSize =
            encodeEntry true column value := by
        intro value bytes
        rw [List.take_append_of_le_length (length_encodeEntry _ _ _).ge,
          List.take_of_length_le (length_encodeEntry _ _ _).le]
      have hdrop : ∀ value : Option (column.dataType.Data V), ∀ bytes,
          (encodeEntry true column value ++ bytes).drop column.dataType.getEncodingSize =
            bytes := by
        intro value bytes
        rw [List.drop_append_of_le_length (length_encodeEntry _ _ _).ge,
          List.drop_eq_nil_of_le (length_encodeEntry _ _ _).le, List.nil_append]
      rw [htake, htake, hdrop, hdrop]
      exact ⟨encodeEntry_eq_iff hl.1 hr.1, ih hl.2 hr.2⟩

/-- Whatever calls the key blocks come from, their tuples compare as the rows that were encoded. -/
theorem encodeKeys_preservesOrder (compareUnstructured : V → V → Ordering)
    (columns : List KeyColumn) (ftIdx : UInt8) (numTuplesPerBlockInFT : ℕ)
    (created : OrderByKeyEncoder) (batches : List (KeyVectors V columns))
    (hcreate : OrderByKeyEncoder.create columns ftIdx numTuplesPerBlockInFT = .ok created)
    (hpos : 0 < numTuplesPerBlockInFT)
    (hshape : ∀ vectors ∈ batches, KeyVectors.SameShape columns vectors)
    (hrows : ∀ row ∈ batches.flatMap (KeyVectors.rows columns), RowEncodable columns row) :
    let rows := batches.flatMap (KeyVectors.rows columns)
    let keys := ((batches.foldl (OrderByKeyEncoder.encodeKeys columns) created).tuples columns).map
      (List.take (numBytesOfKeys columns))
    keys.length = rows.length ∧
    ∀ (i j : ℕ) (l r : KeyRow V columns) (lKey rKey : List UInt8), rows[i]? = some l →
      rows[j]? = some r → keys[i]? = some lKey → keys[j]? = some rKey →
      (DifferBeforeTie compareUnstructured columns l r →
        compare lKey rKey = compareRows compareUnstructured columns l r) ∧
      ColumnsReflected compareUnstructured columns l r lKey rKey := by
  obtain ⟨hcounts, hmax, hempty, hzero, hswap⟩ := OrderByKeyEncoder.counts_create hcreate hpos
  have hrun := OrderByKeyEncoder.encodeKeys_run hcounts hmax (hzero ▸ Nat.zero_le _) hshape
  rw [hempty, List.nil_append] at hrun
  intro rows keys
  have hkeys : keys = rows.map (encodeRow true columns) := by
    have htake : ∀ k (row : KeyRow V columns),
        (created.encodeTuple columns k row).take (numBytesOfKeys columns) =
          encodeRow true columns row := by
      intro k row
      rw [OrderByKeyEncoder.encodeTuple, hswap,
        List.take_append_of_le_length (length_encodeRow _ _).ge,
        List.take_of_length_le (length_encodeRow _ _).le]
    apply List.ext_getElem?
    intro k
    simp only [keys, rows, hrun, List.getElem?_map, List.getElem?_mapIdx, Option.map_map]
    congr 1
    funext row
    exact htake (0 + k) row
  refine ⟨by rw [hkeys, List.length_map], ?_⟩
  intro i j l r lKey rKey hl hr hlKey hrKey
  rw [hkeys, List.getElem?_map, hl, Option.map_some, Option.some.injEq] at hlKey
  rw [hkeys, List.getElem?_map, hr, Option.map_some, Option.some.injEq] at hrKey
  have hlrow := hrows l (List.mem_of_getElem? hl)
  have hrrow := hrows r (List.mem_of_getElem? hr)
  rw [← hlKey, ← hrKey]
  exact ⟨compare_encodeRow hlrow hrrow, columnsReflected_encodeRow hlrow hrrow⟩

def ascendingInt64 : List KeyColumn := [⟨.int64, true⟩]

/-- An unflat vector without a filter that holds 3 and -5. -/
def threeAndMinusFive : KeyVectors Unit ascendingInt64 :=
  ({ values := fun i ↦ if i = 0 then (3 : Int64) else (-5 : Int64)
     nullMask := ⟨fun _ ↦ false, false, fun _ _ ↦ rfl⟩
     state := ⟨none, none, 2⟩ }, ())

theorem encodeKeys_preservesOrder_threeAndMinusFive :
    let keys := ((OrderByKeyEncoder.encodeKeys ascendingInt64
      { ftIdx := 0, numTuplesPerBlockInFT := 1 } threeAndMinusFive).tuples ascendingInt64).map
        (List.take (numBytesOfKeys ascendingInt64))
    ∃ lKey rKey, keys[0]? = some lKey ∧ keys[1]? = some rKey ∧ compare lKey rKey = .gt := by
  intro keys
  obtain ⟨hlength, horder⟩ := encodeKeys_preservesOrder (fun _ _ ↦ .eq) ascendingInt64 0 1
    { ftIdx := 0, numTuplesPerBlockInFT := 1 } [threeAndMinusFive] rfl Nat.zero_lt_one
    (by
      intro vectors hmem
      obtain rfl := List.mem_singleton.mp hmem
      exact Or.inl ⟨rfl, trivial⟩)
    (by
      intro row hmem
      rw [List.flatMap_singleton] at hmem
      obtain ⟨i, _, rfl⟩ := List.mem_map.mp hmem
      exact ⟨fun _ _ ↦ trivial, trivial⟩)
  have htwo : keys.length = 2 := hlength
  have h₀ : keys[0]? = some (keys[0]) := List.getElem?_eq_getElem (by omega)
  have h₁ : keys[1]? = some (keys[1]) := List.getElem?_eq_getElem (by omega)
  have hcompare := (horder 0 1 (some (3 : Int64), ())
    (some (-5 : Int64), ()) keys[0] keys[1] rfl rfl
    h₀ h₁).1 ⟨id, Or.inl (by decide)⟩
  exact ⟨keys[0], keys[1], h₀, h₁, hcompare⟩

end Graphflow.OrderBy
