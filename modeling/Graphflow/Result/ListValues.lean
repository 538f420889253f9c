import Graphflow.Result.StoredValues

/-!
# Lists in memory

A `gf_list_t` has the number of its elements and a pointer to them.  Elements of fixed size lie one
behind the other, a long string or a list among them has a pointer of its own.
-/

namespace Graphflow.Result

open Lib Processor

/-! ## Types and values -/

/-- The child type of a list. -/
inductive ElementType
  | value (type : DataType)
  | list (childType : ElementType)
  deriving DecidableEq, Repr

namespace ElementType

def getDataTypeSize : ElementType → ℕ
  | value type => type.getDataTypeSize
  | list _ => 16

/-- The type of the values that are no lists. -/
def innermost : ElementType → DataType
  | value type => type
  | list childType => childType.innermost

end ElementType

/-- The bytes of a value, the characters of a string, or the elements of a list. -/
def ElementValue : ElementType → Type
  | .value _ => List UInt8
  | .list childType => List (ElementValue childType)

namespace ElementValue

/-- No list is empty. -/
def NoEmptyList : (type : ElementType) → ElementValue type → Prop
  | .value _, _ => True
  | .list childType, (elements : List (ElementValue childType)) =>
      elements ≠ [] ∧ ∀ element ∈ elements, NoEmptyList childType element

def numAllocations : (type : ElementType) → ElementValue type → ℕ
  | .value type, _ => if type = .string then 1 else 0
  | .list childType, (elements : List (ElementValue childType)) =>
      1 + (elements.map (numAllocations childType)).sum

/-- The text of a list. -/
def text (print : DataType → List UInt8 → String) :
    (type : ElementType) → ElementValue type → String
  | .value type, value => print type value
  | .list childType, (elements : List (ElementValue childType)) =>
      "[" ++ ",".intercalate (elements.map (text print childType)) ++ "]"

end ElementValue

/-! ## Reading lists -/

/-- What stops an operation on lists. -/
inductive ListFault
  | execution (fault : ExecutionFault)
  | assertion
  deriving DecidableEq, Repr

namespace GfList

def size (m : Memory) (a : ℕ) : ℕ := ofLittleEndian (readAt m a 8)

def overflowPtr (m : Memory) (a : ℕ) : ℕ := ofLittleEndian (readAt m (a + 8) 8)

/-- `size - 1` without a sign. -/
def lastIdx (m : Memory) (a : ℕ) : ℕ := (size m a + (2 ^ 64 - 1)) % 2 ^ 64

/-- An element is read where the list has one. -/
def elementToString (m : Memory) (a elementSize : ℕ) (toString : ℕ → Except ListFault String)
    (pos : ℕ) : Except ListFault String :=
  if pos < size m a then toString (overflowPtr m a + pos * elementSize)
  else .error (.execution .invalidAccess)

/-- The loop of `TypeUtils::toString` over the elements but the last one. -/
def elementsToString (m : Memory) (a elementSize : ℕ) (toString : ℕ → Except ListFault String) :
    Except ListFault String := do
  let result ← (List.range (lastIdx m a)).foldlM (fun result i ↦ do
    let element ← elementToString m a elementSize toString i
    return result ++ (element ++ ",")) "["
  let element ← elementToString m a elementSize toString (lastIdx m a)
  return result ++ (element ++ "]")

/-- Node IDs reach the assertion of the `default` branch.  `print` is `toString` of the other
types. -/
def toString (print : DataType → List UInt8 → String) (m : Memory) :
    ElementType → ℕ → Except ListFault String
  | .value type, a => elementsToString m a type.getDataTypeSize (fun b ↦
      if type = .nodeID then .error .assertion else .ok (print type (readValue type m b)))
  | .list childType, a => elementsToString m a 16 (toString print m childType)

end GfList

/-! ## Values in memory -/

/-- The value at an address.  The elements of lists and the characters of long strings are among the
live addresses; they lie in blocks, so there are no more of them than fit into one. -/
def ElementAt (m : Memory) (live : Set ℕ) : (type : ElementType) → ℕ → ElementValue type → Prop
  | .value type, a, value => type.Holds value ∧ StoredAt m live type a value
  | .list childType, a, (elements : List (ElementValue childType)) =>
      GfList.size m a = elements.length ∧
      elements.length * childType.getDataTypeSize ≤ largePageSize ∧
      (∀ i < elements.length * childType.getDataTypeSize, GfList.overflowPtr m a + i ∈ live) ∧
      ∀ (i : ℕ) (element : ElementValue childType), elements[i]? = some element →
        ElementAt m live childType (GfList.overflowPtr m a + i * childType.getDataTypeSize) element

variable {m m' : Memory} {live live' : Set ℕ} {a b : ℕ}

theorem ElementType.getDataTypeSize_pos (type : ElementType) : 0 < type.getDataTypeSize := by
  cases type with
  | value type => exact Result.getDataTypeSize_pos type
  | list childType => exact Nat.succ_pos 15

/-- Values are moved with the bytes that hold them. -/
theorem ElementAt.move {type : ElementType} {value : ElementValue type}
    (h : ElementAt m live type a value)
    (hbytes : ∀ i < type.getDataTypeSize, m' (b + i) = m (a + i))
    (hlive : ∀ c ∈ live, m' c = m c) (hsubset : live ⊆ live') :
    ElementAt m' live' type b value := by
  induction type generalizing a b with
  | value type => exact ⟨h.1, h.2.move hbytes hlive hsubset⟩
  | list childType ih =>
      obtain ⟨hsize, hfits, hmem, helements⟩ := h
      have hread : ∀ k n, k + n ≤ 16 → readAt m' (b + k) n = readAt m (a + k) n := by
        intro k n hle
        apply List.map_congr_left
        intro i hi
        rw [Nat.add_assoc, Nat.add_assoc]
        exact hbytes (k + i) (by
          rw [List.mem_range] at hi
          change k + i < 16
          omega)
      have hsize' : GfList.size m' b = GfList.size m a :=
        congrArg ofLittleEndian (hread 0 8 (by decide))
      have hptr : GfList.overflowPtr m' b = GfList.overflowPtr m a :=
        congrArg ofLittleEndian (hread 8 8 (by decide))
      refine ⟨hsize'.trans hsize, hfits, ?_, ?_⟩
      · rw [hptr]
        exact fun i hi ↦ hsubset (hmem i hi)
      · rw [hptr]
        intro i element helement
        refine ih (helements i element helement) fun j hj ↦ ?_
        rw [Nat.add_assoc]
        apply hlive
        apply hmem
        obtain ⟨hlt, -⟩ := List.getElem?_eq_some_iff.mp helement
        calc i * childType.getDataTypeSize + j
            < (i + 1) * childType.getDataTypeSize := by rw [Nat.add_mul, Nat.one_mul]; omega
          _ ≤ List.length value * childType.getDataTypeSize := Nat.mul_le_mul_right _ hlt

/-! ## Printing -/

/-- Each element but the last one is followed by a comma. -/
theorem foldl_comma (texts : List String) (last result : String) :
    texts.foldl (fun result text ↦ result ++ (text ++ ",")) result ++ last =
      result ++ ",".intercalate (texts ++ [last]) := by
  induction texts generalizing result with
  | nil => rw [List.foldl_nil, List.nil_append, String.intercalate_singleton]
  | cons text texts ih =>
      rw [List.foldl_cons, ih, List.cons_append,
        String.intercalate_cons_of_ne_nil (List.append_ne_nil_of_right_ne_nil _ (by simp)),
        String.append_assoc, String.append_assoc]

namespace GfList

variable {elementSize : ℕ} {element : ℕ → Except ListFault String} {texts : List String}

theorem size_lt (m : Memory) (a : ℕ) : size m a < 2 ^ 64 := by
  have hlt := ofLittleEndian_lt (readAt m a 8)
  rwa [length_readAt] at hlt

theorem lastIdx_of_pos (h : 0 < size m a) : lastIdx m a = size m a - 1 := by
  have hlt := size_lt m a
  rw [lastIdx]
  omega

theorem elementToString_of_lt {pos : ℕ} (h : pos < size m a) :
    elementToString m a elementSize element pos = element (overflowPtr m a + pos * elementSize) :=
  if_pos h

theorem elementsToString_eq (hne : texts ≠ []) (hsize : size m a = texts.length)
    (htexts : ∀ (i : ℕ) (text : String), texts[i]? = some text →
      element (overflowPtr m a + i * elementSize) = .ok text) :
    elementsToString m a elementSize element = .ok ("[" ++ ",".intercalate texts ++ "]") := by
  have hpos := List.length_pos_of_ne_nil hne
  have hlast : lastIdx m a = texts.length - 1 := by rw [lastIdx_of_pos (by omega), hsize]
  have hloop : (List.range (texts.length - 1)).foldlM (fun result i ↦ do
      let text ← elementToString m a elementSize element i
      return result ++ (text ++ ",")) "[" =
        .ok (texts.dropLast.foldl (fun result text ↦ result ++ (text ++ ",")) "[") := by
    rw [List.range_eq_range', List.dropLast_eq_take]
    apply foldlM_range'_eq_ok
      (fun k ↦ (texts.take k).foldl (fun result text ↦ result ++ (text ++ ",")) "[")
    intro k hk
    have hlt : k < texts.length := by omega
    rw [Nat.zero_add, elementToString_of_lt (by omega),
      htexts k _ (List.getElem?_eq_getElem hlt), List.take_succ_eq_append_getElem hlt,
      List.foldl_append]
    rfl
  have hget := htexts (texts.length - 1) _ (List.getElem?_eq_getElem (by omega))
  rw [elementsToString, hlast, hloop, ok_bind, elementToString_of_lt (by omega), hget, ok_bind,
    pure_eq_ok, ← String.append_assoc, ← List.getLast_eq_getElem hne, foldl_comma,
    List.dropLast_append_getLast]

theorem exists_of_elementsToString_eq_ok {result : String}
    (h : elementsToString m a elementSize element = .ok result) : 0 < size m a ∧
      ∀ i < size m a, ∃ text, element (overflowPtr m a + i * elementSize) = .ok text := by
  obtain ⟨result', hloop, hrest⟩ := bind_eq_ok_iff.mp h
  obtain ⟨lastText, hlast, -⟩ := bind_eq_ok_iff.mp hrest
  have helement : ∀ pos text, elementToString m a elementSize element pos = .ok text →
      pos < size m a ∧ element (overflowPtr m a + pos * elementSize) = .ok text := by
    intro pos text htext
    rw [elementToString] at htext
    split at htext
    next hlt => exact ⟨hlt, htext⟩
    next => cases htext
  obtain ⟨hlt, hget⟩ := helement _ _ hlast
  have hpos : 0 < size m a := Nat.zero_lt_of_lt hlt
  rw [lastIdx_of_pos hpos] at hloop hget
  refine ⟨hpos, fun i hi ↦ ?_⟩
  by_cases heq : i = size m a - 1
  · rw [heq]
    exact ⟨_, hget⟩
  · obtain ⟨s₁, s₂, -, hstep⟩ := exists_step_of_foldlM_eq_ok (fun _ ↦ True) hloop trivial
      (fun _ _ _ _ _ ↦ trivial) (List.mem_range.mpr (by omega : i < size m a - 1))
    obtain ⟨text, htext, -⟩ := bind_eq_ok_iff.mp hstep
    exact ⟨text, (helement i text htext).2⟩

variable {print : DataType → List UInt8 → String} {childType : ElementType}
  {elements : List (ElementValue childType)}

/-- The elements are printed if each of them is. -/
theorem elementsToString_of_elements
    (h : ElementAt m live (.list childType) a elements) (hne : elements ≠ [])
    (htexts : ∀ (b : ℕ) (value : ElementValue childType), value ∈ elements →
      ElementAt m live childType b value → element b = .ok (value.text print childType)) :
    elementsToString m a childType.getDataTypeSize element =
      .ok (ElementValue.text print (.list childType) elements) := by
  obtain ⟨hsize, -, -, helements⟩ := h
  apply elementsToString_eq
  · exact List.map_eq_nil_iff.not.mpr hne
  · rw [hsize, List.length_map]
  · intro i text htext
    rw [List.getElem?_map, Option.map_eq_some_iff] at htext
    obtain ⟨value, hvalue, rfl⟩ := htext
    exact htexts _ value (List.mem_of_getElem? hvalue) (helements i value hvalue)

theorem toString_eq (h : ElementAt m live (.list childType) a elements)
    (hne : ElementValue.NoEmptyList (.list childType) elements)
    (htype : childType.innermost ≠ .nodeID) :
    toString print m childType a = .ok (ElementValue.text print (.list childType) elements) := by
  induction childType generalizing a with
  | value type =>
      apply elementsToString_of_elements h hne.1
      intro b value _ hvalue
      change type ≠ .nodeID at htype
      rw [if_neg htype, hvalue.2.readValue_eq]
      rfl
  | list childType ih =>
      apply elementsToString_of_elements h hne.1
      intro b value hmem hvalue
      exact ih hvalue (hne.2 value hmem) htype

/-- Only lists are printed in which no list is empty and that have no node IDs. -/
theorem noEmptyList_of_toString (h : ElementAt m live (.list childType) a elements)
    {result : String}
    (htext : toString print m childType a = .ok result) :
    ElementValue.NoEmptyList (.list childType) elements ∧ childType.innermost ≠ .nodeID := by
  induction childType generalizing a result with
  | value type =>
      obtain ⟨hpos, htexts⟩ := exists_of_elementsToString_eq_ok htext
      obtain ⟨text, hfirst⟩ := htexts 0 hpos
      refine ⟨⟨?_, fun _ _ ↦ trivial⟩, ?_⟩
      · rintro rfl
        rw [h.1] at hpos
        cases hpos
      · intro htype
        change type = .nodeID at htype
        rw [if_pos htype] at hfirst
        cases hfirst
  | list childType ih =>
      obtain ⟨hpos, htexts⟩ := exists_of_elementsToString_eq_ok htext
      have hprinted : ∀ (i : ℕ) (value : List (ElementValue childType)),
          elements[i]? = some value → ElementValue.NoEmptyList (.list childType) value ∧
            childType.innermost ≠ .nodeID := by
        intro i value hvalue
        obtain ⟨hlt, -⟩ := List.getElem?_eq_some_iff.mp hvalue
        obtain ⟨text, htext⟩ := htexts i (h.1.symm ▸ hlt)
        exact ih (h.2.2.2 i value hvalue) htext
      have hlt : 0 < elements.length := by rwa [← h.1]
      refine ⟨⟨?_, fun value hmem ↦ ?_⟩, ?_⟩
      · rintro rfl
        rw [h.1] at hpos
        cases hpos
      · obtain ⟨i, hi⟩ := List.mem_iff_getElem?.mp hmem
        exact (hprinted i value hi).1
      · exact (hprinted 0 _ (List.getElem?_eq_getElem hlt)).2

end GfList

end Graphflow.Result
