import Graphflow.Common.GfString
import Mathlib.Data.List.Lex

/-!
# Strings in memory

A `gf_string_t` has sixteen bytes: the length in four of them, then the prefix and, for a short
string, the rest of its characters; a long one has a pointer there.  `set` does not allocate the
memory that the pointer leads to.  The operators compare bytes wherever they lie.
-/

namespace Graphflow.GfString

open Lib

section Memory

variable {m m' : Memory} {a b : ℕ} {s t : List UInt8}

/-- `len`, which has 32 bits. -/
def len (m : Memory) (a : ℕ) : ℕ := ofLittleEndian (readAt m a 4)

def overflowPtr (m : Memory) (a : ℕ) : ℕ := ofLittleEndian (readAt m (a + 8) 8)

/-- Where the prefix begins, or where the pointer leads. -/
def getData (m : Memory) (a : ℕ) : ℕ := if len m a ≤ shortStrLength then a + 4 else overflowPtr m a

/-- `set(const char* value, uint64_t length)`. -/
def set (m : Memory) (a : ℕ) (value : List UInt8) : Memory :=
  let m := overwrite m a (littleEndian 4 value.length)
  if value.length ≤ shortStrLength then overwrite m (a + 4) value
  else
    let m := overwrite m (a + 4) (value.take prefixLength)
    overwrite m (overflowPtr m a) value

def memcmp (m : Memory) (a b n : ℕ) : Ordering := compare (readAt m a n) (readAt m b n)

/-- `operator==`. -/
def equals (m : Memory) (this rhs : ℕ) : Bool :=
  let numBytesOfLenAndPrefix := 4 + min (len m this) prefixLength
  if memcmp m this rhs numBytesOfLenAndPrefix = .eq then
    memcmp m (getData m this) (getData m rhs) (len m this) = .eq
  else false

/-- `operator>`. -/
def greaterThan (m : Memory) (this rhs : ℕ) : Bool :=
  let sharedLen := min (len m this) (len m rhs)
  let prefixResult := memcmp m (this + 4) (rhs + 4)
    (if sharedLen ≤ prefixLength then sharedLen else prefixLength)
  let memcmpResult := if prefixResult = .eq ∧ prefixLength < len m this then
      memcmp m (getData m this) (getData m rhs) sharedLen
    else prefixResult
  if memcmpResult = .eq then len m rhs < len m this else memcmpResult = .gt

def notEquals (m : Memory) (this rhs : ℕ) : Bool := !equals m this rhs

def greaterThanEquals (m : Memory) (this rhs : ℕ) : Bool :=
  greaterThan m this rhs || equals m this rhs

def lessThan (m : Memory) (this rhs : ℕ) : Bool := !greaterThanEquals m this rhs

def lessThanEquals (m : Memory) (this rhs : ℕ) : Bool := !greaterThan m this rhs

/-- The bytes at `a`, and those that a long string has elsewhere, are as `set` has left them.
Before that the pointer led to memory that does not overlap the string itself. -/
def IsSet (m : Memory) (a : ℕ) (s : List UInt8) : Prop :=
  ∃ m₀ : Memory,
    (shortStrLength < s.length →
      overflowPtr m₀ a + s.length ≤ a ∨ a + 16 ≤ overflowPtr m₀ a) ∧
    (∀ i < 16, m (a + i) = set m₀ a s (a + i)) ∧
    (shortStrLength < s.length →
      ∀ i < s.length, m (overflowPtr m₀ a + i) = set m₀ a s (overflowPtr m₀ a + i))

/-- The bytes at `a` stand for a string. -/
structure Represents (m : Memory) (a : ℕ) (s : List UInt8) : Prop where
  len : readAt m a 4 = littleEndian 4 s.length
  prefixBytes : readAt m (a + 4) (min s.length prefixLength) = s.take prefixLength
  data : readAt m (getData m a) s.length = s

theorem overflowPtr_overwrite {bytes : List UInt8} (k : ℕ) (hk : k + bytes.length ≤ 8) :
    overflowPtr (overwrite m (a + k) bytes) a = overflowPtr m a := by
  rw [overflowPtr, readAt_overwrite_of_disjoint (by omega), overflowPtr]

/-- What `set` does to a short string. -/
theorem set_of_short (hshort : s.length ≤ shortStrLength) :
    set m a s = overwrite m a (littleEndian 4 s.length ++ s) := by
  have happend := overwrite_append m a (littleEndian 4 s.length) s
  rw [length_littleEndian] at happend
  rw [set, if_pos hshort, happend]

theorem set_of_long (hlong : shortStrLength < s.length) :
    set m a s = overwrite (overwrite m a (littleEndian 4 s.length ++ s.take prefixLength))
      (overflowPtr m a) s := by
  have hppr := @overflowPtr_overwrite m a (littleEndian 4 s.length ++ s.take prefixLength) 0
    (by rw [List.length_append, length_littleEndian, List.length_take, prefixLength]; omega)
  have happend := overwrite_append m a (littleEndian 4 s.length) (s.take prefixLength)
  rw [length_littleEndian] at happend
  rw [set, if_neg (Nat.not_le.mpr hlong), happend]
  exact congrArg (fun p ↦ overwrite _ p s) hppr

/-- The parts of what has been written. -/
theorem readAt_overwrite_parts (m : Memory) (a : ℕ) (x y : List UInt8) :
    readAt (overwrite m a (x ++ y)) a x.length = x ∧
      readAt (overwrite m a (x ++ y)) (a + x.length) y.length = y := by
  have hall := readAt_overwrite m a (x ++ y)
  rw [List.length_append, readAt_add] at hall
  exact List.append_inj hall (length_readAt _ _ _)

theorem readAt_take {n : ℕ} (h : readAt m a s.length = s) (hn : n ≤ s.length) :
    readAt m a n = s.take n := by
  rw [← take_readAt hn, h]

/-- A length that fits into 32 bits is read back. -/
theorem Represents.len_eq (h : Represents m a s) (hlength : s.length < 2 ^ 32) :
    GfString.len m a = s.length := by
  rw [GfString.len, h.len]
  exact ofLittleEndian_littleEndian hlength

theorem IsSet.represents (h : IsSet m a s) (hlength : s.length < 2 ^ 32) : Represents m a s := by
  obtain ⟨m₀, hapart, hstruct, hoverflow⟩ := h
  have hread : ∀ k n, k + n ≤ 16 → readAt m (a + k) n = readAt (set m₀ a s) (a + k) n := by
    intro k n hkn
    apply readAt_congr
    intro b hle hlt
    have hb := hstruct (b - a) (by omega)
    rwa [Nat.add_sub_cancel' (by omega)] at hb
  have hlen := hread 0 4 (by omega)
  by_cases hshort : s.length ≤ shortStrLength
  · have hmax : s.length ≤ 12 := hshort
    obtain ⟨hfirst, hsecond⟩ := readAt_overwrite_parts m₀ a (littleEndian 4 s.length) s
    rw [length_littleEndian, ← set_of_short hshort] at hfirst hsecond
    have hchars : readAt m (a + 4) s.length = s := by rw [hread 4 _ (by omega), hsecond]
    rw [Nat.add_zero, hfirst] at hlen
    have hdata : getData m a = a + 4 := by
      rw [getData, GfString.len, hlen, ofLittleEndian_littleEndian hlength, if_pos hshort]
    refine ⟨hlen, ?_, by rw [hdata, hchars]⟩
    rw [readAt_take hchars (Nat.min_le_left _ _)]
    exact List.take_eq_take_iff.mpr (by omega)
  · have hlong : shortStrLength < s.length := Nat.lt_of_not_le hshort
    have hmin : 12 < s.length := hlong
    have hpart : (s.take prefixLength).length = prefixLength := by
      rw [List.length_take, prefixLength]
      omega
    have hout := hapart hlong
    obtain ⟨hfirst, hsecond⟩ :=
      readAt_overwrite_parts m₀ a (littleEndian 4 s.length) (s.take prefixLength)
    rw [length_littleEndian] at hfirst hsecond
    rw [hpart] at hsecond
    -- Copying the characters leaves the string itself as it is.
    have hkeep : ∀ k n, k + n ≤ 16 → readAt m (a + k) n = readAt (overwrite m₀ a
        (littleEndian 4 s.length ++ s.take prefixLength)) (a + k) n := by
      intro k n hkn
      rw [hread k n hkn, set_of_long hlong]
      exact readAt_overwrite_of_disjoint (by omega)
    have hlen := hkeep 0 4 (by omega)
    rw [Nat.add_zero, hfirst] at hlen
    have hptr : overflowPtr m a = overflowPtr m₀ a := by
      rw [overflowPtr, hkeep 8 8 (by omega), overflowPtr]
      apply congrArg
      apply readAt_overwrite_of_disjoint
      rw [List.length_append, length_littleEndian, hpart, prefixLength]
      omega
    have hdata : getData m a = overflowPtr m₀ a := by
      rw [getData, GfString.len, hlen, ofLittleEndian_littleEndian hlength, if_neg hshort, hptr]
    refine ⟨hlen, ?_, ?_⟩
    · have hfour : min s.length prefixLength = prefixLength := by
        rw [prefixLength]
        omega
      rw [hfour, hkeep 4 _ (by decide), hsecond]
    · rw [hdata]
      have hchars : readAt m (overflowPtr m₀ a) s.length =
          readAt (set m₀ a s) (overflowPtr m₀ a) s.length := by
        apply readAt_congr
        intro b hle hlt
        have hb := hoverflow hlong (b - overflowPtr m₀ a) (by omega)
        rwa [Nat.add_sub_cancel' hle] at hb
      rw [hchars, set_of_long hlong, readAt_overwrite]

/-! ## The operators -/

section Operators

variable (hs : Represents m a s) (ht : Represents m b t) (hslength : s.length < 2 ^ 32)
  (htlength : t.length < 2 ^ 32)

include hs ht hslength htlength

theorem equals_iff : equals m a b ↔ s = t := by
  rw [equals, hs.len_eq hslength]
  have hheader : memcmp m a b (4 + min s.length prefixLength) = .eq ↔
      s.length = t.length ∧ readAt m (a + 4) (min s.length prefixLength) =
        readAt m (b + 4) (min s.length prefixLength) := by
    rw [memcmp, Std.LawfulEqOrd.compare_eq_iff_eq, readAt_add, readAt_add, hs.len, ht.len]
    constructor
    · intro heq
      obtain ⟨hlen, hfront⟩ := List.append_inj heq (by simp)
      have hnat := congrArg ofLittleEndian hlen
      rw [ofLittleEndian_littleEndian hslength, ofLittleEndian_littleEndian htlength] at hnat
      exact ⟨hnat, hfront⟩
    · rintro ⟨hlength, hfront⟩
      rw [hlength] at hfront ⊢
      rw [hfront]
  constructor
  · intro h
    split at h
    next hfirst =>
      obtain ⟨hlength, -⟩ := hheader.mp hfirst
      rw [decide_eq_true_eq, memcmp, Std.LawfulEqOrd.compare_eq_iff_eq, hs.data, hlength,
        ht.data] at h
      exact h
    next => cases h
  · rintro rfl
    rw [if_pos (hheader.mpr ⟨rfl, hs.prefixBytes.trans ht.prefixBytes.symm⟩), decide_eq_true_eq,
      memcmp, Std.LawfulEqOrd.compare_eq_iff_eq, hs.data, ht.data]

/-- The characters that are compared are those of the strings. -/
theorem greaterThan_eq : greaterThan m a b = gt s t := by
  obtain ⟨shared, hshared⟩ : ∃ n, n = min s.length t.length := ⟨_, rfl⟩
  have hfront : ∀ n ≤ min shared prefixLength,
      memcmp m (a + 4) (b + 4) n = compare (s.take n) (t.take n) := by
    intro n hn
    have hleft : readAt m (a + 4) n = s.take n := by
      rw [← take_readAt (by omega : n ≤ min s.length prefixLength), hs.prefixBytes, List.take_take]
      congr 1
      omega
    have hright : readAt m (b + 4) n = t.take n := by
      rw [← take_readAt (by omega : n ≤ min t.length prefixLength), ht.prefixBytes, List.take_take]
      congr 1
      omega
    rw [memcmp, hleft, hright]
  have hdata : memcmp m (getData m a) (getData m b) shared =
      compare (s.take shared) (t.take shared) := by
    rw [memcmp, readAt_take hs.data (by omega), readAt_take ht.data (by omega)]
  have hfirst := hfront (if shared ≤ prefixLength then shared else prefixLength)
    (by split <;> omega)
  simp only [greaterThan, gt, hs.len_eq hslength, ht.len_eq htlength, ← hshared, hfirst, hdata]

end Operators

/-- The operators compare the strings byte by byte from the left. -/
structure ComparesLexicographically (m : Memory) (a b : ℕ) (s t : List UInt8) : Prop where
  equals : equals m a b ↔ s = t
  greaterThan : greaterThan m a b ↔ t.map UInt8.toNat < s.map UInt8.toNat
  notEquals : notEquals m a b ↔ s ≠ t
  greaterThanEquals : greaterThanEquals m a b ↔ t.map UInt8.toNat ≤ s.map UInt8.toNat
  lessThan : lessThan m a b ↔ s.map UInt8.toNat < t.map UInt8.toNat
  lessThanEquals : lessThanEquals m a b ↔ s.map UInt8.toNat ≤ t.map UInt8.toNat

theorem map_toNat_inj : s.map UInt8.toNat = t.map UInt8.toNat ↔ s = t :=
  (List.map_injective_iff.mpr fun _ _ ↦ UInt8.toNat_inj.mp).eq_iff

/-- Strings whose lengths fit into 32 bits are compared lexicographically. -/
theorem comparesLexicographically (hs : IsSet m a s) (ht : IsSet m b t)
    (hslength : s.length < 2 ^ 32) (htlength : t.length < 2 ^ 32) :
    ComparesLexicographically m a b s t := by
  have hs' := hs.represents hslength
  have ht' := ht.represents htlength
  have hequals := equals_iff hs' ht' hslength htlength
  have hgreater : GfString.greaterThan m a b ↔ t.map UInt8.toNat < s.map UInt8.toNat := by
    rw [greaterThan_eq hs' ht' hslength htlength, gt_iff, compare_eq_gt_iff_map_toNat]
  have hge : GfString.greaterThanEquals m a b ↔ t.map UInt8.toNat ≤ s.map UInt8.toNat := by
    rw [GfString.greaterThanEquals, Bool.or_eq_true, hgreater, hequals, le_iff_lt_or_eq,
      map_toNat_inj, eq_comm]
  refine ⟨hequals, hgreater, ?_, hge, ?_, ?_⟩
  · rw [GfString.notEquals, Bool.not_eq_true', ← Bool.not_eq_true, hequals]
  · rw [GfString.lessThan, Bool.not_eq_true', ← Bool.not_eq_true, hge, not_le]
  · rw [GfString.lessThanEquals, Bool.not_eq_true', ← Bool.not_eq_true, hgreater, not_lt]

end Memory

/-- Memory in which the strings at 0 and at 16 point to 32 and to 64. -/
def freshMemory : Memory := overwrite (overwrite (fun _ ↦ 0) 8 [32]) 24 [64]

/-- A short string beside a long one that begins with it. -/
theorem comparesLexicographically_shortAndLong :
    ComparesLexicographically (set (set freshMemory 0 [104, 105]) 16
      (104 :: 105 :: .replicate 11 33))
      0 16 [104, 105] (104 :: 105 :: .replicate 11 33) := by
  refine comparesLexicographically ⟨freshMemory, ?_, ?_, ?_⟩
    ⟨set freshMemory 0 [104, 105], ?_, ?_, ?_⟩ (by decide) (by decide)
  · decide
  · decide +kernel
  · decide
  · decide +kernel
  · exact fun _ _ ↦ rfl
  · exact fun _ _ _ ↦ rfl

/-- The length of a string of `2 ^ 32` characters is taken for zero. -/
theorem equals_empty_of_length_eq {s : List UInt8} (hlength : s.length = 2 ^ 32) :
    ∃ m, IsSet m 0 s ∧ IsSet m 16 [] ∧ equals m 0 16 := by
  have hlong : shortStrLength < s.length := by
    rw [hlength]
    decide
  have hptr : overflowPtr freshMemory 0 = 32 := by decide
  have hempty : ∀ m b, (b < 16 ∨ 20 ≤ b) → set m 16 [] b = m b := by
    intro m b hb
    rw [set_of_short (Nat.zero_le _)]
    exact overwrite_of_outside (by simpa using hb)
  refine ⟨set (set freshMemory 0 s) 16 [], ⟨freshMemory, ?_, ?_, ?_⟩,
    ⟨set freshMemory 0 s, ?_, ?_, ?_⟩, ?_⟩
  · intro _
    rw [hptr]
    exact .inr (by decide)
  · exact fun i hi ↦ hempty _ _ (by omega)
  · intro _ i hi
    rw [hptr]
    exact hempty _ _ (by omega)
  · exact fun h ↦ absurd h (by decide)
  · exact fun _ _ ↦ rfl
  · exact fun _ _ _ ↦ rfl
  · have hzero : readAt (set (set freshMemory 0 s) 16 []) 0 4 = [0, 0, 0, 0] := by
      have hfirst := (readAt_overwrite_parts freshMemory 0 (littleEndian 4 s.length)
        (s.take prefixLength)).1
      rw [length_littleEndian, hlength] at hfirst
      have hkeep : readAt (set (set freshMemory 0 s) 16 []) 0 4 =
          readAt (set freshMemory 0 s) 0 4 :=
        readAt_congr fun b _ hb ↦ hempty _ _ (by omega)
      rw [hkeep, set_of_long hlong, hptr, readAt_overwrite_of_disjoint (.inl (by decide)), hlength,
        hfirst]
      decide
    have hlen : len (set (set freshMemory 0 s) 16 []) 0 = 0 := by
      rw [len, hzero]
      decide
    have hright : readAt (set (set freshMemory 0 s) 16 []) 16 4 = [0, 0, 0, 0] := by
      rw [set_of_short (Nat.zero_le _)]
      exact readAt_overwrite _ _ [0, 0, 0, 0]
    have hheader : memcmp (set (set freshMemory 0 s) 16 []) 0 16
        (4 + min 0 prefixLength) = .eq := by
      rw [memcmp, Nat.zero_min, Nat.add_zero, hzero, hright]
      rfl
    rw [equals, hlen, if_pos hheader]
    rfl

/-- A string of `2 ^ 32` characters is equal to the empty one. -/
theorem not_comparesLexicographically_long :
    ∃ m, IsSet m 0 (.replicate (2 ^ 32) 0) ∧ IsSet m 16 [] ∧
      ¬ComparesLexicographically m 0 16 (.replicate (2 ^ 32) 0) [] := by
  obtain ⟨m, hs, ht, hequals⟩ :=
    @equals_empty_of_length_eq (.replicate (2 ^ 32) 0) List.length_replicate
  refine ⟨m, hs, ht, fun h ↦ ?_⟩
  have hlength := congrArg List.length (h.equals.mp hequals)
  rw [List.length_replicate] at hlength
  exact absurd hlength (by decide)

end Graphflow.GfString
