import Graphflow.Lib.Transition
import Mathlib.Logic.Function.Basic

/-!
# Pages in frames that are written back

A page that is wanted is read from a file into a frame, and one finds in the frame what has been
written to it since.  When the frame is needed for another page it is written to the file only if it
has been marked as dirty.  So a change of a frame that is not marked can be lost, and so can a
change of a frame that is not pinned any more.
-/

namespace Graphflow.Lib

/-- `shown` is what one finds on a page now and `saved` what the file has.  A page without a frame
is not dirty, and the same in both. -/
structure WriteBack (Page : Type*) where
  shown : ℕ → Page
  saved : ℕ → Page
  dirty : ℕ → Bool

namespace WriteBack

variable {Page : Type*} {c : WriteBack Page} {p q : ℕ} {page : Page}

/-- What is left of a page without its frame. -/
def survivor (c : WriteBack Page) (p : ℕ) : Page := if c.dirty p then c.shown p else c.saved p

/-- The frame of a page is given up. -/
def evict (c : WriteBack Page) (p : ℕ) : WriteBack Page where
  shown := Function.update c.shown p (c.survivor p)
  saved := Function.update c.saved p (c.survivor p)
  dirty := Function.update c.dirty p false

/-- The frames of some pages are given up. -/
def flush (c : WriteBack Page) (ps : List ℕ) : WriteBack Page := ps.foldl evict c

/-- Giving up the frame of the page loses nothing. -/
def Keeps (c : WriteBack Page) (p : ℕ) : Prop := c.dirty p = true ∨ c.shown p = c.saved p

theorem Keeps.survivor_eq (h : c.Keeps p) : c.survivor p = c.shown p := by
  rw [survivor]
  split_ifs with hdirty
  · rfl
  · exact (h.resolve_left hdirty).symm

theorem Keeps.shown_evict (h : c.Keeps p) : (c.evict p).shown = c.shown := by
  rw [evict, h.survivor_eq, Function.update_eq_self]

theorem keeps_evict_self (c : WriteBack Page) (p : ℕ) : (c.evict p).Keeps p := by
  right
  simp only [evict, Function.update_self]

theorem Keeps.evict (h : c.Keeps q) (p : ℕ) : (c.evict p).Keeps q := by
  by_cases hqp : q = p
  · exact hqp ▸ keeps_evict_self c p
  · simp only [Keeps, WriteBack.evict, Function.update_of_ne hqp]
    exact h

/-- A flush of pages that lose nothing changes nothing that is shown. -/
theorem shown_flush {ps : List ℕ} (h : ∀ p ∈ ps, c.Keeps p) : (c.flush ps).shown = c.shown := by
  induction ps generalizing c with
  | nil => rfl
  | cons p ps ih =>
      have hrest : ∀ q ∈ ps, (c.evict p).Keeps q :=
        fun q hq ↦ (h q (List.mem_cons_of_mem p hq)).evict p
      exact (ih hrest).trans (h p List.mem_cons_self).shown_evict

end WriteBack

/-! ## Accesses to frames -/

/-- An access to the frame of a page. -/
inductive FrameAccess (Page : Type*)
  /-- The page is not read from the file, and the frame is marked as dirty. -/
  | create (p : ℕ) (page : Page)
  /-- The frame is changed and not marked. -/
  | update (p : ℕ) (updateOp : Page → Page)
  /-- The frame that the access number `pinnedAt` has pinned is changed, although it is not pinned
  any more. -/
  | unpinned (pinnedAt p : ℕ) (updateOp : Page → Page)

namespace FrameAccess

variable {Page : Type*}

/-- What the access does to the pages if nothing is lost. -/
def apply (pages : ℕ → Page) : FrameAccess Page → ℕ → Page
  | create p page => Function.update pages p page
  | update p updateOp => Function.update pages p (updateOp (pages p))
  | unpinned _ p updateOp => Function.update pages p (updateOp (pages p))

/-- A frame that is written to without being pinned has not been given up since.  The frames
`evictions j` are given up right before the access number `j`. -/
def Held (evictions : ℕ → List ℕ) (k : ℕ) : FrameAccess Page → Prop
  | create _ _ => True
  | update _ _ => True
  | unpinned pinnedAt p _ => ∀ j < k + 1, pinnedAt < j → p ∉ evictions j

instance (evictions : ℕ → List ℕ) (k : ℕ) :
    (access : FrameAccess Page) → Decidable (access.Held evictions k)
  | create _ _ => isTrue trivial
  | update _ _ => isTrue trivial
  | unpinned _ _ _ => Nat.decidableBallLT _ _

end FrameAccess

namespace WriteBack

variable {Page : Type*} {c : WriteBack Page} {evictions : ℕ → List ℕ}

def access (c : WriteBack Page) (access : FrameAccess Page) : WriteBack Page where
  shown := access.apply c.shown
  saved := c.saved
  dirty :=
    match access with
    | .create p _ => Function.update c.dirty p true
    | _ => c.dirty

/-- One access with its number.  A write to a frame that has been given up goes anywhere. -/
def perform (evictions : ℕ → List ℕ) (c : WriteBack Page) (a : FrameAccess Page × ℕ) :
    Option (WriteBack Page) :=
  if a.1.Held evictions a.2 then some ((c.flush (evictions a.2)).access a.1) else none

structure LosesNothing (evictions : ℕ → List ℕ) (c : WriteBack Page) (a : FrameAccess Page × ℕ) :
    Prop where
  keeps : ∀ p ∈ evictions a.2, c.Keeps p
  held : a.1.Held evictions a.2

theorem perform_of_losesNothing {a : FrameAccess Page × ℕ} (h : LosesNothing evictions c a) :
    ∃ c', perform evictions c a = some c' ∧ c'.shown = a.1.apply c.shown := by
  refine ⟨_, if_pos h.held, ?_⟩
  show a.1.apply (c.flush (evictions a.2)).shown = _
  rw [shown_flush h.keeps]

/-- As long as nothing is lost, the accesses do to what is shown what they say. -/
theorem exists_run_perform {accesses : List (FrameAccess Page × ℕ)}
    (h : MeetsAlong (perform evictions) (LosesNothing evictions) c accesses) :
    ∃ c', run (perform evictions) c accesses = some c' ∧
      c'.shown = (accesses.map Prod.fst).foldl FrameAccess.apply c.shown := by
  induction accesses generalizing c with
  | nil => exact ⟨c, rfl, rfl⟩
  | cons a accesses ih =>
      obtain ⟨hnothing, hrest⟩ := h
      obtain ⟨c₁, hperform, hshown⟩ := perform_of_losesNothing hnothing
      obtain ⟨c', hrun, hshown'⟩ := ih (hrest c₁ hperform)
      refine ⟨c', run_cons_eq_some_iff.mpr ⟨c₁, hperform, hrun⟩, ?_⟩
      rw [hshown', hshown, List.map_cons, List.foldl_cons]

end WriteBack

end Graphflow.Lib
