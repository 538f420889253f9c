import Mathlib.Algebra.Ring.Nat

/-!
# Constants

Sizes and sentinels that several parts of the database share.
-/

namespace Graphflow

/-- `DEFAULT_PAGE_SIZE`. -/
def defaultPageSize : ℕ := 4096

/-- `LARGE_PAGE_SIZE`. -/
def largePageSize : ℕ := 2 ^ 18

/-- `NULL_PAGE_IDX`. -/
def nullPageIdx : UInt32 := 4294967295

/-- The characters of a string that are kept twice. -/
def prefixLength : ℕ := 4

/-- The short strings that fit into the string value itself. -/
def shortStrLength : ℕ := 12

end Graphflow
