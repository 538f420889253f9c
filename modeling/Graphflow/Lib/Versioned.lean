import Mathlib.Tactic.Common

/-!
# Values with a pending write version

A value that many readers and one writer share.  Readers use the read-only version; the writer
works on a copy that is made by its first update.  At the end the copy either replaces the
read-only version or is dropped.
-/

namespace Graphflow.Lib

structure Versioned (α : Type*) where
  readOnly : α
  write : Option α := none
  deriving DecidableEq, Repr

namespace Versioned

variable {α : Type*} {v w : Versioned α} {a : α}

def hasUpdates (v : Versioned α) : Bool := v.write.isSome

/-- What the writer sees. -/
def forWrite (v : Versioned α) : α := v.write.getD v.readOnly

def setWrite (v : Versioned α) (a : α) : Versioned α := { v with write := some a }

/-- Make the copy if there is none yet. -/
def initWrite (v : Versioned α) : Versioned α := v.setWrite v.forWrite

def rollback (v : Versioned α) : Versioned α := { v with write := none }

/-- Without a write version there is nothing that could become the read-only version. -/
def checkpoint? (v : Versioned α) : Option (Versioned α) := v.write.map fun a ↦ ⟨a, none⟩

@[simp] theorem forWrite_setWrite : (v.setWrite a).forWrite = a := rfl

@[simp] theorem readOnly_setWrite : (v.setWrite a).readOnly = v.readOnly := rfl

@[simp] theorem forWrite_initWrite : v.initWrite.forWrite = v.forWrite := rfl

@[simp] theorem readOnly_initWrite : v.initWrite.readOnly = v.readOnly := rfl

@[simp] theorem forWrite_rollback : v.rollback.forWrite = v.readOnly := rfl

@[simp] theorem readOnly_rollback : v.rollback.readOnly = v.readOnly := rfl

theorem forWrite_of_write_eq_none (hv : v.write = none) : v.forWrite = v.readOnly := by
  simp [forWrite, hv]

theorem rollback_of_write_eq_none (hv : v.write = none) : v.rollback = v := by
  cases v
  simp_all [rollback]

end Versioned

end Graphflow.Lib
