import Graphflow.Lib.Bytes

/-!
# Reading back what has been written

A deserializer takes bytes from the front of what is left of a file.  `Reads` says that it takes
just these bytes, whatever follows, and its rules compose like the deserializers.
-/

namespace Graphflow.Lib

/-- `none`: the file ends, or the bytes stand for no value. -/
abbrev Deserializer (α : Type) := StateT (List UInt8) Option α

variable {α β : Type}

namespace Deserializer

def readBytes (n : ℕ) : Deserializer (List UInt8) := fun bytes ↦
  if n ≤ bytes.length then some (bytes.take n, bytes.drop n) else none

def readNumber (width : ℕ) : Deserializer ℕ := do
  let bytes ← readBytes width
  return ofLittleEndian bytes

/-- So many values, one behind the other. -/
def readMany (read : Deserializer α) : ℕ → Deserializer (List α)
  | 0 => return []
  | n + 1 => do
      let a ← read
      let as ← readMany read n
      return a :: as

def ofOption : Option α → Deserializer α
  | none => failure
  | some a => return a

end Deserializer

open Deserializer

/-- The bytes are read as the value, whatever stands behind them. -/
def Reads (read : Deserializer α) (bytes : List UInt8) (a : α) : Prop :=
  ∀ rest, read.run (bytes ++ rest) = some (a, rest)

namespace Reads

variable {read : Deserializer α} {bytes bytes' : List UInt8} {a : α} {b : β}

theorem pure (a : α) : Reads (Pure.pure a) [] a := fun _ ↦ rfl

theorem bind {next : α → Deserializer β} (h : Reads read bytes a)
    (hnext : Reads (next a) bytes' b) : Reads (read >>= next) (bytes ++ bytes') b := by
  intro rest
  rw [StateT.run_bind, List.append_assoc, h (bytes' ++ rest)]
  exact hnext rest

/-- Nothing more is read. -/
theorem bind_pure {next : α → Deserializer β} (h : Reads read bytes a)
    (hnext : Reads (next a) [] b) : Reads (read >>= next) bytes b := by
  rw [← List.append_nil bytes]
  exact h.bind hnext

theorem readBytes (bytes : List UInt8) :
    Reads (Deserializer.readBytes bytes.length) bytes bytes := by
  intro rest
  have hle : bytes.length ≤ (bytes ++ rest).length := by simp
  have hrun : (Deserializer.readBytes bytes.length).run (bytes ++ rest) =
      if bytes.length ≤ (bytes ++ rest).length then
        some ((bytes ++ rest).take bytes.length, (bytes ++ rest).drop bytes.length)
      else none := rfl
  rw [hrun, if_pos hle, List.take_left, List.drop_left]

theorem readNumber {width n : ℕ} (h : n < 256 ^ width) :
    Reads (Deserializer.readNumber width) (littleEndian width n) n := by
  have hbytes := readBytes (littleEndian width n)
  rw [length_littleEndian] at hbytes
  apply hbytes.bind_pure
  rw [ofLittleEndian_littleEndian h]
  exact pure n

/-- What is read can differ from what is written. -/
theorem readMany_map {write : α → List UInt8} {f : α → β} {read : Deserializer β} {as : List α}
    (h : ∀ a ∈ as, Reads read (write a) (f a)) :
    Reads (Deserializer.readMany read as.length) (as.flatMap write) (as.map f) := by
  induction as with
  | nil => exact pure []
  | cons a as ih =>
      have hhead := h a List.mem_cons_self
      have htail := ih fun b hb ↦ h b (List.mem_cons_of_mem a hb)
      exact hhead.bind (htail.bind_pure (pure (f a :: as.map f)))

theorem ofOption {o : Option α} (h : o = some a) : Reads (Deserializer.ofOption o) [] a := by
  rw [h]
  exact pure a

end Reads

/-- The bytes are read as the value, or reading stops there without one. -/
def ReadsOption (read : Deserializer α) (bytes : List UInt8) (o : Option α) : Prop :=
  ∀ rest, read.run (bytes ++ rest) = o.map fun a ↦ (a, rest)

theorem Reads.bindOption {read : Deserializer α} {next : α → Deserializer β}
    {bytes bytes' : List UInt8} {a : α} {o : Option β} (h : Reads read bytes a)
    (hnext : ReadsOption (next a) bytes' o) : ReadsOption (read >>= next) (bytes ++ bytes') o := by
  intro rest
  rw [StateT.run_bind, List.append_assoc, h (bytes' ++ rest)]
  exact hnext rest

/-- Nothing more is read. -/
theorem Reads.bindOption_nil {read : Deserializer α} {next : α → Deserializer β}
    {bytes : List UInt8} {a : α} {o : Option β} (h : Reads read bytes a)
    (hnext : ReadsOption (next a) [] o) : ReadsOption (read >>= next) bytes o := by
  rw [← List.append_nil bytes]
  exact h.bindOption hnext

namespace ReadsOption

variable {read : Deserializer α} {bytes bytes' : List UInt8} {o : Option α}

theorem ofOption (o : Option α) : ReadsOption (Deserializer.ofOption o) [] o := by
  intro rest
  cases o with
  | none => rfl
  | some a => rfl

theorem bind {next : α → Deserializer β} {g : α → Option β} (h : ReadsOption read bytes o)
    (hnext : ∀ a, o = some a → ReadsOption (next a) bytes' (g a)) :
    ReadsOption (read >>= next) (bytes ++ bytes') (o.bind g) := by
  intro rest
  rw [StateT.run_bind, List.append_assoc, h (bytes' ++ rest)]
  cases o with
  | none => rfl
  | some a => exact hnext a rfl rest

theorem bind_pure {next : α → Deserializer β} {g : α → Option β} (h : ReadsOption read bytes o)
    (hnext : ∀ a, o = some a → ReadsOption (next a) [] (g a)) :
    ReadsOption (read >>= next) bytes (o.bind g) := by
  rw [← List.append_nil bytes]
  exact h.bind hnext

theorem readMany {write : α → List UInt8} {read : Deserializer β} {f : α → Option β} {as : List α}
    (h : ∀ a ∈ as, ReadsOption read (write a) (f a)) :
    ReadsOption (Deserializer.readMany read as.length) (as.flatMap write) (as.mapM f) := by
  induction as with
  | nil => exact Reads.pure []
  | cons a as ih =>
      have hhead := h a List.mem_cons_self
      have htail := ih fun b hb ↦ h b (List.mem_cons_of_mem a hb)
      rw [List.mapM_cons]
      exact hhead.bind fun b _ ↦ htail.bind_pure fun bs _ ↦ Reads.pure (b :: bs)

end ReadsOption

end Graphflow.Lib
