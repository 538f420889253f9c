import Graphflow.Lib.Except
import Graphflow.Lib.Substring

/-!
# Finding a string in another one

`Find::find` looks for the first character of the needle and goes on from there with an algorithm
that depends on the length of the needle: loads of whole integers, an integer into which one
character after the other is shifted, or a sum of characters that tells where to compare.  Lengths
have 32 bits and offsets lie below them, so they do not wrap around.
-/

namespace Graphflow.Find

open Lib

/-- A read behind the end of the haystack or the needle. -/
inductive ReadFault
  | outOfBounds
  deriving DecidableEq

def charAt (s : List UInt8) (i : ℕ) : Except ReadFault UInt8 :=
  match s[i]? with
  | some c => .ok c
  | none => .error .outOfBounds

/-- The `size` bytes at an offset as an integer. -/
def loadAt (size : ℕ) (s : List UInt8) (offset : ℕ) : Except ReadFault ℕ :=
  if offset + size ≤ s.length then .ok (ofLittleEndian (window s offset size))
  else .error .outOfBounds

def memcmpAt (s : List UInt8) (offset : ℕ) (needle : List UInt8) : Except ReadFault Ordering :=
  if offset + needle.length ≤ s.length then
    .ok (compare (window s offset needle.length) needle)
  else .error .outOfBounds

/-! ## Needles that do not fill an integer -/

/-- The entries before the loop; `size` is that of `UNSIGNED`. -/
def initialEntry (size : ℕ) (s : List UInt8) (needleLen : ℕ) : Except ReadFault ℕ :=
  (List.range needleLen).foldlM (fun entry i ↦ do
    let c ← charAt s i
    return entry ||| c.toNat <<< (size * 8 - 8 - i * 8)) 0

def unalignedLoop (size : ℕ) (haystack : List UInt8)
    (needleLen firstMatchCharOffset needleEntry : ℕ)
    (offset haystackEntry : ℕ) : Except ReadFault ℤ :=
  if offset < haystack.length then
    if haystackEntry = needleEntry then .ok (firstMatchCharOffset + offset - needleLen : ℤ)
    else do
      let c ← charAt haystack offset
      unalignedLoop size haystack needleLen firstMatchCharOffset needleEntry (offset + 1)
        (haystackEntry <<< 8 % 2 ^ (size * 8) ||| c.toNat <<< ((size - needleLen) * 8))
  else if haystackEntry = needleEntry then
    .ok (firstMatchCharOffset + haystack.length - needleLen : ℤ)
  else .ok (-1)
termination_by haystack.length - offset

def unalignedNeedleSizeFind (size : ℕ) (haystack needle : List UInt8) (firstMatchCharOffset : ℕ) :
    Except ReadFault ℤ :=
  if needle.length > haystack.length then .ok (-1)
  else do
    let needleEntry ← initialEntry size needle needle.length
    let haystackEntry ← initialEntry size haystack needle.length
    unalignedLoop size haystack needle.length firstMatchCharOffset needleEntry needle.length
      haystackEntry

/-! ## Needles of the size of an integer -/

def alignedLoop (size : ℕ) (haystack : List UInt8) (firstMatchCharOffset needleVal offset : ℕ) :
    Except ReadFault ℤ :=
  if offset ≤ haystack.length - size then do
    let haystackVal ← loadAt size haystack offset
    if needleVal = haystackVal then return (firstMatchCharOffset + offset : ℤ)
    else alignedLoop size haystack firstMatchCharOffset needleVal (offset + 1)
  else .ok (-1)
termination_by haystack.length + 1 - offset

def alignedNeedleSizeFind (size : ℕ) (haystack needle : List UInt8) (firstMatchCharOffset : ℕ) :
    Except ReadFault ℤ :=
  if size > haystack.length then .ok (-1)
  else do
    let needleVal ← loadAt size needle 0
    alignedLoop size haystack firstMatchCharOffset needleVal 0

/-! ## Longer needles -/

/-- The difference of the sums of characters wraps around. -/
def initialSumsDiff (haystack needle : List UInt8) : Except ReadFault UInt32 :=
  (List.range needle.length).foldlM (fun sumsDiff i ↦ do
    let x ← charAt haystack i
    let y ← charAt needle i
    return sumsDiff + x.toUInt32 - y.toUInt32) 0

/-- One position: a comparison of all characters only if the sums and the first ones are the
same. -/
def matchesAt (haystack needle : List UInt8) (offset : ℕ) (sumsDiff : UInt32) :
    Except ReadFault Bool :=
  if sumsDiff = 0 then do
    let x ← charAt haystack offset
    let y ← charAt needle 0
    if x = y then do
      let memcmpResult ← memcmpAt haystack offset needle
      return memcmpResult = .eq
    else return false
  else return false

def genericLoop (haystack needle : List UInt8) (firstMatchCharOffset offset : ℕ)
    (sumsDiff : UInt32) : Except ReadFault ℤ := do
  let found ← matchesAt haystack needle offset sumsDiff
  if found then return (firstMatchCharOffset + offset : ℤ)
  else if haystack.length - needle.length ≤ offset then return -1
  else do
    let first ← charAt haystack offset
    let next ← charAt haystack (offset + needle.length)
    genericLoop haystack needle firstMatchCharOffset (offset + 1)
      (sumsDiff - first.toUInt32 + next.toUInt32)
termination_by haystack.length - offset

def genericFind (haystack needle : List UInt8) (firstMatchCharOffset : ℕ) : Except ReadFault ℤ :=
  if needle.length > haystack.length then .ok (-1)
  else do
    let sumsDiff ← initialSumsDiff haystack needle
    genericLoop haystack needle firstMatchCharOffset 0 sumsDiff

/-! ## The search -/

/-- The `switch`, for the characters from the first one that matches on. -/
def findFrom (haystack needle : List UInt8) (firstMatchCharOffset : ℕ) : Except ReadFault ℤ :=
  match needle.length with
  | 1 => .ok firstMatchCharOffset
  | 2 => alignedNeedleSizeFind 2 haystack needle firstMatchCharOffset
  | 3 => unalignedNeedleSizeFind 4 haystack needle firstMatchCharOffset
  | 4 => alignedNeedleSizeFind 4 haystack needle firstMatchCharOffset
  | 5 | 6 | 7 => unalignedNeedleSizeFind 8 haystack needle firstMatchCharOffset
  | 8 => alignedNeedleSizeFind 8 haystack needle firstMatchCharOffset
  | _ => genericFind haystack needle firstMatchCharOffset

def find (haystack needle : List UInt8) : Except ReadFault ℤ := do
  let first ← charAt needle 0
  match haystack.findIdx? (· == first) with
  | none => return -1
  | some firstMatchCharOffset =>
      findFrom (haystack.drop firstMatchCharOffset) needle firstMatchCharOffset

section Algorithms

variable {haystack needle : List UInt8} {size k e first offset entry needleEntry : ℕ} {c : UInt8}

/-- What the functions return for a position behind `first`. -/
def position (first : ℕ) : Option ℕ → ℤ
  | none => -1
  | some i => first + i

theorem charAt_of_getElem? {s : List UInt8} {i : ℕ} (h : s[i]? = some c) : charAt s i = .ok c := by
  rw [charAt, h]

theorem charAt_of_lt {s : List UInt8} {i : ℕ} (h : i < s.length) : charAt s i = .ok s[i] :=
  charAt_of_getElem? (List.getElem?_eq_getElem h)

/-- No occurrence begins where the needle does not fit any more. -/
theorem not_occursAt (hne : needle ≠ []) {i : ℕ} (h : haystack.length < i + needle.length) :
    ¬OccursAt haystack needle i := by
  intro hoccurs
  have hle := hoccurs.add_le hne
  omega

/-! ## Shifting characters into an integer -/

/-- A character gets behind those that are in the integer. -/
theorem or_shiftLeft (A e : ℕ) (c : UInt8) :
    A * 2 ^ (e + 8) ||| c.toNat <<< e = (c.toNat + 256 * A) * 2 ^ e := by
  have hlt : c.toNat < 2 ^ 8 := c.toNat_lt
  have hshift : A * 2 ^ (e + 8) = (2 ^ 8 * A) <<< e := by
    rw [Nat.shiftLeft_eq]
    ring
  rw [hshift, ← Nat.shiftLeft_or_distrib, ← Nat.two_pow_add_eq_or_of_lt hlt, Nat.shiftLeft_eq,
    Nat.add_comm]

theorem initialEntry_eq {s : List UInt8} (hk : k ≤ s.length) (hsize : k ≤ size) :
    initialEntry size s k = .ok (ofBigEndian (s.take k) * 2 ^ ((size - k) * 8)) := by
  have hloop := @foldlM_range'_eq_ok ReadFault ℕ (fun entry i ↦ do
    let c ← charAt s i
    return entry ||| c.toNat <<< (size * 8 - 8 - i * 8)) 0 k
    (fun j ↦ ofBigEndian (s.take j) * 2 ^ ((size - j) * 8)) ?_
  · rw [← List.range_eq_range', List.take_zero, ofBigEndian_nil, Nat.zero_mul] at hloop
    exact hloop
  · intro j hj
    have hj' : j < s.length := by omega
    have hold : (size - j) * 8 = (size * 8 - 8 - (0 + j) * 8) + 8 := by omega
    have hnew : (size - (j + 1)) * 8 = size * 8 - 8 - (0 + j) * 8 := by omega
    have htake : s.take (j + 1) = s.take j ++ [s[j]] := List.take_succ_eq_append_getElem hj'
    have hchar : charAt s (0 + j) = .ok s[j] := by
      rw [Nat.zero_add]
      exact charAt_of_lt hj'
    rw [hchar, ok_bind, pure_eq_ok, hold, or_shiftLeft, hnew, htake, ofBigEndian_concat]

/-- Moving the window by one character: the first one is shifted out. -/
theorem shiftedEntry_eq {x y : UInt8} {mid : List UInt8} (hk : mid.length + 1 = k)
    (hsize : k ≤ size) :
    (ofBigEndian (x :: mid) * 2 ^ ((size - k) * 8)) <<< 8 % 2 ^ (size * 8) |||
        y.toNat <<< ((size - k) * 8) =
      ofBigEndian (mid ++ [y]) * 2 ^ ((size - k) * 8) := by
  have hlt := ofBigEndian_lt mid
  obtain ⟨e, he⟩ : ∃ e, e = (size - k) * 8 := ⟨_, rfl⟩
  have htop : 256 ^ mid.length * 2 ^ (e + 8) = 2 ^ (size * 8) := by
    have hexp : mid.length * 8 + (e + 8) = size * 8 := by omega
    rw [show (256 : ℕ) = 2 ^ 8 by rfl, ← Nat.pow_mul, ← Nat.pow_add, Nat.mul_comm 8, hexp]
  have hcut : (ofBigEndian (x :: mid) * 2 ^ e) <<< 8 % 2 ^ (size * 8) =
      ofBigEndian mid * 2 ^ (e + 8) := by
    have hsplit : (ofBigEndian (x :: mid) * 2 ^ e) <<< 8 =
        ofBigEndian mid * 2 ^ (e + 8) + 2 ^ (size * 8) * x.toNat := by
      rw [ofBigEndian_cons, Nat.shiftLeft_eq, ← htop]
      ring
    rw [hsplit, Nat.add_mul_mod_self_left]
    apply Nat.mod_eq_of_lt
    rw [← htop]
    exact Nat.mul_lt_mul_of_pos_right hlt (Nat.two_pow_pos _)
  rw [← he, hcut, or_shiftLeft, ofBigEndian_concat]

/-- The entries are the same if the needle occurs at the window. -/
theorem entry_eq_iff {i : ℕ} (hfits : i + needle.length ≤ haystack.length) (e : ℕ) :
    ofBigEndian (window haystack i needle.length) * 2 ^ e = ofBigEndian needle * 2 ^ e ↔
      OccursAt haystack needle i := by
  rw [Nat.mul_left_inj (Nat.two_pow_pos e).ne', ofBigEndian_inj (length_window hfits), OccursAt]

theorem exists_unalignedLoop (hne : needle ≠ []) (hsize : needle.length ≤ size) (first : ℕ)
    (hoffset : needle.length ≤ offset) (hend : offset ≤ haystack.length) :
    ∃ r, unalignedLoop size haystack needle.length first
        (ofBigEndian needle * 2 ^ ((size - needle.length) * 8)) offset
        (ofBigEndian (window haystack (offset - needle.length) needle.length) *
          2 ^ ((size - needle.length) * 8)) = .ok (position first r) ∧
      LeastFrom (OccursAt haystack needle) (offset - needle.length) r := by
  have hpos := List.length_pos_of_ne_nil hne
  obtain ⟨n, hn⟩ : ∃ n, n = haystack.length - offset := ⟨_, rfl⟩
  induction n generalizing offset with
  | zero =>
      have hlast : offset = haystack.length := by omega
      rw [unalignedLoop, if_neg (by omega)]
      by_cases hoccurs : OccursAt haystack needle (offset - needle.length)
      · refine ⟨some (offset - needle.length), ?_, leastFrom_self hoccurs⟩
        rw [if_pos ((entry_eq_iff (by omega) _).mpr hoccurs), position]
        congr 1
        omega
      · refine ⟨none, ?_, leastFrom_none fun i hle ↦ ?_⟩
        · rw [if_neg (mt (entry_eq_iff (by omega) _).mp hoccurs), position]
        · rcases Nat.eq_or_lt_of_le hle with rfl | hlt
          · exact hoccurs
          · exact not_occursAt hne (by omega)
  | succ n ih =>
      rw [unalignedLoop, if_pos (by omega)]
      by_cases hoccurs : OccursAt haystack needle (offset - needle.length)
      · refine ⟨some (offset - needle.length), ?_, leastFrom_self hoccurs⟩
        rw [if_pos ((entry_eq_iff (by omega) _).mpr hoccurs), position]
        congr 1
        omega
      · obtain ⟨x, mid, y, -, hy, hwindow, hwindow'⟩ :=
          @exists_window_succ _ haystack (offset - needle.length) _ hpos (by omega)
        have hnext : offset - needle.length + needle.length = offset := by omega
        have hsucc : offset - needle.length + 1 = offset + 1 - needle.length := by omega
        have hmid : mid.length + 1 = needle.length := by
          rw [← List.length_cons (a := x), ← hwindow, length_window (by omega)]
        obtain ⟨r, hrun, hleast⟩ := @ih (offset + 1) (by omega) (by omega) (by omega)
        rw [hnext] at hy
        rw [hsucc] at hwindow'
        rw [← hsucc] at hleast
        refine ⟨r, ?_, hleast.step hoccurs⟩
        rw [if_neg (mt (entry_eq_iff (by omega) _).mp hoccurs), charAt_of_getElem? hy, ok_bind,
          hwindow, shiftedEntry_eq hmid hsize, ← hwindow', hrun]

theorem exists_unalignedNeedleSizeFind (hne : needle ≠ []) (hsize : needle.length ≤ size)
    (haystack : List UInt8) (first : ℕ) :
    ∃ r, unalignedNeedleSizeFind size haystack needle first = .ok (position first r) ∧
      LeastFrom (OccursAt haystack needle) 0 r := by
  by_cases hlong : needle.length > haystack.length
  · refine ⟨none, if_pos hlong, leastFrom_none fun i _ ↦ not_occursAt hne (by omega)⟩
  · have hfits : needle.length ≤ haystack.length := Nat.le_of_not_lt hlong
    obtain ⟨r, hrun, hleast⟩ := exists_unalignedLoop hne hsize first le_rfl hfits
    rw [Nat.sub_self] at hrun hleast
    refine ⟨r, ?_, hleast⟩
    rw [unalignedNeedleSizeFind, if_neg hlong, initialEntry_eq le_rfl hsize, ok_bind,
      initialEntry_eq hfits hsize, ok_bind, List.take_length]
    exact hrun

/-! ## Loading whole integers -/

theorem exists_alignedLoop (hne : needle ≠ []) (hfits : needle.length ≤ haystack.length)
    (first offset : ℕ) :
    ∃ r, alignedLoop needle.length haystack first (ofLittleEndian needle) offset =
        .ok (position first r) ∧
      LeastFrom (OccursAt haystack needle) offset r := by
  obtain ⟨n, hn⟩ : ∃ n, n = haystack.length + 1 - offset := ⟨_, rfl⟩
  induction n generalizing offset with
  | zero =>
      refine ⟨none, ?_, leastFrom_none fun i hle ↦ not_occursAt hne (by omega)⟩
      rw [alignedLoop, if_neg (by omega), position]
  | succ n ih =>
      by_cases hend : offset ≤ haystack.length - needle.length
      · have hwindow : offset + needle.length ≤ haystack.length := by omega
        have hiff : ofLittleEndian needle = ofLittleEndian (window haystack offset needle.length) ↔
            OccursAt haystack needle offset := by
          rw [ofLittleEndian_inj (length_window hwindow).symm, OccursAt, eq_comm]
        rw [alignedLoop, if_pos hend, loadAt, if_pos hwindow, ok_bind]
        by_cases hoccurs : OccursAt haystack needle offset
        · refine ⟨some offset, ?_, leastFrom_self hoccurs⟩
          rw [if_pos (hiff.mpr hoccurs), position, pure_eq_ok]
        · obtain ⟨r, hrun, hleast⟩ := ih (offset + 1) (by omega)
          refine ⟨r, ?_, hleast.step hoccurs⟩
          rw [if_neg (mt hiff.mp hoccurs), hrun]
      · refine ⟨none, ?_, leastFrom_none fun i hle ↦ not_occursAt hne (by omega)⟩
        rw [alignedLoop, if_neg hend, position]

theorem exists_alignedNeedleSizeFind (hne : needle ≠ []) (hsize : needle.length = size)
    (haystack : List UInt8) (first : ℕ) :
    ∃ r, alignedNeedleSizeFind size haystack needle first = .ok (position first r) ∧
      LeastFrom (OccursAt haystack needle) 0 r := by
  subst hsize
  by_cases hlong : needle.length > haystack.length
  · refine ⟨none, if_pos hlong, leastFrom_none fun i _ ↦ not_occursAt hne (by omega)⟩
  · obtain ⟨r, hrun, hleast⟩ := exists_alignedLoop hne (Nat.le_of_not_lt hlong) first 0
    refine ⟨r, ?_, hleast⟩
    have hload : loadAt needle.length needle 0 = .ok (ofLittleEndian needle) := by
      rw [loadAt, if_pos (Nat.zero_add _).le, window, List.drop_zero, List.take_length]
    rw [alignedNeedleSizeFind, if_neg hlong, hload, ok_bind, hrun]

/-! ## Sums of characters -/

def charSum (s : List UInt8) : UInt32 := s.foldr (fun c sum ↦ c.toUInt32 + sum) 0

theorem charSum_cons (c : UInt8) (s : List UInt8) : charSum (c :: s) = c.toUInt32 + charSum s := rfl

theorem charSum_concat (s : List UInt8) (c : UInt8) :
    charSum (s ++ [c]) = charSum s + c.toUInt32 := by
  induction s with
  | nil => exact UInt32.add_comm ..
  | cons x s ih => rw [List.cons_append, charSum_cons, charSum_cons, ih, UInt32.add_assoc]

theorem initialSumsDiff_eq (hfits : needle.length ≤ haystack.length) :
    initialSumsDiff haystack needle =
      .ok (charSum (window haystack 0 needle.length) - charSum needle) := by
  have hloop := @foldlM_range'_eq_ok ReadFault UInt32 (fun sumsDiff i ↦ do
    let x ← charAt haystack i
    let y ← charAt needle i
    return sumsDiff + x.toUInt32 - y.toUInt32) 0 needle.length
    (fun j ↦ charSum (haystack.take j) - charSum (needle.take j)) ?_
  · have hzero : charSum (haystack.take 0) - charSum (needle.take 0) = 0 := UInt32.sub_self _
    rw [← List.range_eq_range', List.take_length, hzero] at hloop
    exact hloop
  · intro j hj
    have hj' : j < haystack.length := by omega
    have htake : haystack.take (j + 1) = haystack.take j ++ [haystack[j]] :=
      List.take_succ_eq_append_getElem hj'
    have htake' : needle.take (j + 1) = needle.take j ++ [needle[j]] :=
      List.take_succ_eq_append_getElem hj
    rw [Nat.zero_add, htake, htake', charSum_concat, charSum_concat]
    simp only [charAt_of_lt hj', charAt_of_lt hj, ok_bind, pure_eq_ok]
    congr 1
    grind

instance (haystack needle : List UInt8) (i : ℕ) : Decidable (OccursAt haystack needle i) :=
  inferInstanceAs (Decidable (window haystack i needle.length = needle))

/-- An occurrence begins with the first character of the needle. -/
theorem getElem?_of_occursAt {i : ℕ} (h : OccursAt haystack (c :: needle) i) :
    haystack[i]? = some c := by
  have hhead := congrArg List.head? h
  rwa [window, List.length_cons, List.head?_take, if_neg (Nat.succ_ne_zero _),
    List.head?_drop] at hhead

/-- The sums and the first characters only rule positions out. -/
theorem matchesAt_eq (hne : needle ≠ []) (hfits : offset + needle.length ≤ haystack.length) :
    matchesAt haystack needle offset
        (charSum (window haystack offset needle.length) - charSum needle) =
      .ok (decide (OccursAt haystack needle offset)) := by
  obtain ⟨c, rest, rfl⟩ := List.exists_cons_of_ne_nil hne
  have hoffset : offset < haystack.length := by
    rw [List.length_cons] at hfits
    omega
  have hneedle : charAt (c :: rest) 0 = .ok c := rfl
  by_cases hoccurs : OccursAt haystack (c :: rest) offset
  · have hwindow : window haystack offset (c :: rest).length = c :: rest := hoccurs
    have hself : compare (c :: rest) (c :: rest) = .eq := Std.LawfulEqOrd.compare_eq_iff_eq.mpr rfl
    rw [matchesAt, hwindow, if_pos (UInt32.sub_self _),
      charAt_of_getElem? (getElem?_of_occursAt hoccurs), ok_bind, hneedle, ok_bind, if_pos rfl,
      memcmpAt, if_pos hfits, hwindow, ok_bind, pure_eq_ok, decide_eq_true hoccurs, hself]
    rfl
  · rw [decide_eq_false hoccurs, matchesAt]
    split
    next =>
      rw [charAt_of_lt hoffset, ok_bind, hneedle, ok_bind]
      split
      next =>
        have hcompare : compare (window haystack offset (c :: rest).length) (c :: rest) ≠ .eq :=
          fun h ↦ hoccurs (Std.LawfulEqOrd.compare_eq_iff_eq.mp h)
        rw [memcmpAt, if_pos hfits, ok_bind, pure_eq_ok, decide_eq_false hcompare]
      next => rfl
    next => rfl

theorem exists_genericLoop (hne : needle ≠ []) (first : ℕ)
    (hfits : offset + needle.length ≤ haystack.length) :
    ∃ r, genericLoop haystack needle first offset
        (charSum (window haystack offset needle.length) - charSum needle) =
          .ok (position first r) ∧
      LeastFrom (OccursAt haystack needle) offset r := by
  have hpos := List.length_pos_of_ne_nil hne
  obtain ⟨n, hn⟩ : ∃ n, n = haystack.length - needle.length - offset := ⟨_, rfl⟩
  induction n generalizing offset with
  | zero =>
      rw [genericLoop, matchesAt_eq hne hfits, ok_bind]
      by_cases hoccurs : OccursAt haystack needle offset
      · refine ⟨some offset, ?_, leastFrom_self hoccurs⟩
        rw [if_pos (decide_eq_true hoccurs), position, pure_eq_ok]
      · refine ⟨none, ?_, leastFrom_none fun i hle ↦ ?_⟩
        · rw [if_neg (by simpa using hoccurs), if_pos (by omega), position, pure_eq_ok]
        · rcases Nat.eq_or_lt_of_le hle with rfl | hlt
          · exact hoccurs
          · exact not_occursAt hne (by omega)
  | succ n ih =>
      rw [genericLoop, matchesAt_eq hne hfits, ok_bind]
      by_cases hoccurs : OccursAt haystack needle offset
      · refine ⟨some offset, ?_, leastFrom_self hoccurs⟩
        rw [if_pos (decide_eq_true hoccurs), position, pure_eq_ok]
      · obtain ⟨x, mid, y, hx, hy, hwindow, hwindow'⟩ :=
          @exists_window_succ _ haystack offset _ hpos (by omega)
        obtain ⟨r, hrun, hleast⟩ := @ih (offset + 1) (by omega) (by omega)
        have hsums : charSum (window haystack offset needle.length) - charSum needle - x.toUInt32 +
            y.toUInt32 = charSum (window haystack (offset + 1) needle.length) - charSum needle := by
          rw [hwindow, hwindow', charSum_cons, charSum_concat]
          grind
        refine ⟨r, ?_, hleast.step hoccurs⟩
        rw [if_neg (by simpa using hoccurs), if_neg (by omega), charAt_of_getElem? hx, ok_bind,
          charAt_of_getElem? hy, ok_bind, hsums, hrun]

theorem exists_genericFind (hne : needle ≠ []) (haystack : List UInt8) (first : ℕ) :
    ∃ r, genericFind haystack needle first = .ok (position first r) ∧
      LeastFrom (OccursAt haystack needle) 0 r := by
  by_cases hlong : needle.length > haystack.length
  · refine ⟨none, if_pos hlong, leastFrom_none fun i _ ↦ not_occursAt hne (by omega)⟩
  · have hfits : 0 + needle.length ≤ haystack.length := by omega
    obtain ⟨r, hrun, hleast⟩ := exists_genericLoop hne first hfits
    refine ⟨r, ?_, hleast⟩
    rw [genericFind, if_neg hlong, initialSumsDiff_eq (by omega), ok_bind, hrun]

/-! ## The search -/

/-- Whichever algorithm the length of the needle selects. -/
theorem exists_findFrom (hhead : haystack.head? = some c) (first : ℕ) :
    ∃ r, findFrom haystack (c :: needle) first = .ok (position first r) ∧
      LeastFrom (OccursAt haystack (c :: needle)) 0 r := by
  have hne : c :: needle ≠ [] := List.cons_ne_nil c needle
  rw [findFrom]
  split
  next hone =>
    have hnil : needle = [] := List.length_eq_zero_iff.mp (Nat.succ.inj hone)
    obtain ⟨rest, rfl⟩ := List.head?_eq_some_iff.mp hhead
    rw [hnil]
    exact ⟨some 0, rfl, leastFrom_self rfl⟩
  next htwo => exact exists_alignedNeedleSizeFind hne htwo haystack first
  next hthree => exact exists_unalignedNeedleSizeFind hne (by omega) haystack first
  next hfour => exact exists_alignedNeedleSizeFind hne hfour haystack first
  next hfive => exact exists_unalignedNeedleSizeFind hne (by omega) haystack first
  next hsix => exact exists_unalignedNeedleSizeFind hne (by omega) haystack first
  next hseven => exact exists_unalignedNeedleSizeFind hne (by omega) haystack first
  next height => exact exists_alignedNeedleSizeFind hne height haystack first
  next => exact exists_genericFind hne haystack first

/-- The search reads only characters of the two strings and finds the first occurrence. -/
theorem exists_find (hne : needle ≠ []) (haystack : List UInt8) :
    ∃ r, find haystack needle = .ok (position 0 r) ∧ LeastFrom (OccursAt haystack needle) 0 r := by
  obtain ⟨c, rest, rfl⟩ := List.exists_cons_of_ne_nil hne
  have hchar : charAt (c :: rest) 0 = .ok c := rfl
  rw [find, hchar, ok_bind]
  cases hfind : haystack.findIdx? (· == c) with
  | none =>
      refine ⟨none, rfl, leastFrom_none fun i _ hoccurs ↦ ?_⟩
      have hmem := List.mem_of_getElem? (getElem?_of_occursAt hoccurs)
      have hall := List.findIdx?_eq_none_iff.mp hfind c hmem
      simp at hall
  | some first =>
      obtain ⟨hlt, heq, hbefore⟩ := List.findIdx?_eq_some_iff_getElem.mp hfind
      -- No occurrence begins before the first character.
      have hnone : ∀ i < first, ¬OccursAt haystack (c :: rest) i := by
        intro i hi hoccurs
        have hget := getElem?_of_occursAt hoccurs
        rw [List.getElem?_eq_getElem (hi.trans hlt), Option.some.injEq] at hget
        exact hbefore i hi (by simpa using hget)
      have hhead : (haystack.drop first).head? = some c := by
        rw [List.head?_drop, List.getElem?_eq_getElem hlt, Option.some.injEq]
        exact beq_iff_eq.mp heq
      obtain ⟨r, hrun, hleast⟩ := exists_findFrom hhead first
      refine ⟨r.map (first + ·), ?_, LeastFrom.shift ?_ hnone⟩
      · refine hrun.trans (congrArg _ ?_)
        cases r with
        | none => rfl
        | some i => simp [position]
      · have hiff : OccursAt (haystack.drop first) (c :: rest) =
            fun i ↦ OccursAt haystack (c :: rest) (first + i) :=
          funext fun i ↦ propext (occursAt_drop haystack (c :: rest) first i)
        rwa [hiff] at hleast

/-- A needle of three characters, which occurs twice in the last five of the haystack. -/
theorem exists_find_three :
    ∃ r, find [98, 97, 97, 98, 97, 98, 97, 98] [98, 97, 98] = .ok (position 0 r) ∧
      LeastFrom (@OccursAt UInt8 [98, 97, 97, 98, 97, 98, 97, 98] [98, 97, 98]) 0 r :=
  exists_find (List.cons_ne_nil _ _) _

end Algorithms

end Graphflow.Find
