import Graphflow.Transaction.System

/-!
# Snapshot safety of the transaction protocol

Which transactions are active is read off the history of events alone.  The manager's fields are
shown to agree with it, and from the agreement follow the guarantees of the protocol: increasing
identifiers, a single writer, and the exclusive phase of a checkpoint between the stop function and
`allowReceivingNewTransactions`.

The sentinel `INT64_MAX` for the absence of a writer is itself the identifier of some transaction,
so the agreement is proved for histories with fewer than `INT64_MAX` transactions.
-/

namespace Graphflow.TransactionSystem

open Wal

variable {Client : Type*} {s s' : State Client} {c d : Client} {h h₁ h₂ : List (Event Client)}

/-- The transactions active after one more event. -/
def activeAfter (active : Finset Transaction) : Event Client → Finset Transaction
  | .began _ t => insert t active
  | .ended t => active.erase t
  | _ => active

/-- The transactions that have begun and not ended, according to the history. -/
def active (h : List (Event Client)) : Finset Transaction := h.foldl activeAfter ∅

@[simp] theorem active_nil : active ([] : List (Event Client)) = ∅ := rfl

@[simp] theorem active_concat (h : List (Event Client)) (e : Event Client) :
    active (h ++ [e]) = activeAfter (active h) e := by
  simp [active]

@[simp] theorem issued_append (h₁ h₂ : List (Event Client)) :
    issued (h₁ ++ h₂) = issued h₁ ++ issued h₂ := by
  simp [issued]

/-- Events that neither begin nor end a transaction. -/
def Event.Neutral (e : Event Client) : Prop :=
  (∀ active, activeAfter active e = active) ∧ issued [e] = []

theorem neutral_of_control {e : Event Client} (hbegan : ∀ c t, e ≠ .began c t)
    (hended : ∀ t, e ≠ .ended t) : e.Neutral := by
  cases e with
  | began c t => exact absurd rfl (hbegan c t)
  | ended t => exact absurd rfl (hended t)
  | raised | stopped | timedOut | allowed => exact ⟨fun _ ↦ rfl, rfl⟩

/-! ## The manager agrees with the history -/

/-- The fields of the manager are determined by the history. -/
structure Tracks (m : TransactionManager) (h : List (Event Client)) : Prop where
  issued_ids : (issued h).map Transaction.ID = List.range' 1 m.lastTransactionID
  mem_readers_iff : ∀ ID, ID ∈ m.activeReadOnlyTransactionIDs ↔ ⟨.readOnly, ID⟩ ∈ active h
  mem_writers_iff : ∀ ID, ⟨.write, ID⟩ ∈ active h ↔
    ID = m.activeWriteTransactionID ∧ ID ≠ int64Max
  active_issued : ∀ t ∈ active h, t ∈ issued h

variable {m m' : TransactionManager} {t w : Transaction}

theorem Tracks.length_issued (htracks : Tracks m h) :
    (issued h).length = m.lastTransactionID := by
  have hlength := congrArg List.length htracks.issued_ids
  simpa using hlength

theorem Tracks.ID_le (htracks : Tracks m h) (ht : t ∈ issued h) :
    1 ≤ t.ID ∧ t.ID ≤ m.lastTransactionID := by
  have hmem : t.ID ∈ (issued h).map Transaction.ID := List.mem_map_of_mem ht
  rw [htracks.issued_ids, List.mem_range'_1] at hmem
  omega

theorem Tracks.eq_of_write (htracks : Tracks m h) (ht : t ∈ active h) (hw : w ∈ active h)
    (htwrite : t.type = .write) (hwwrite : w.type = .write) : t = w := by
  obtain ⟨_, ID⟩ := t
  obtain ⟨_, ID'⟩ := w
  dsimp only at htwrite hwwrite
  subst htwrite hwwrite
  rw [((htracks.mem_writers_iff ID).mp ht).1, ((htracks.mem_writers_iff ID').mp hw).1]

theorem Tracks.write_of_no_readers (htracks : Tracks m h)
    (hnone : m.activeReadOnlyTransactionIDs = ∅) (ht : t ∈ active h) : t.type = .write := by
  obtain ⟨type, ID⟩ := t
  cases type with
  | write => rfl
  | readOnly =>
      have hmem := (htracks.mem_readers_iff ID).mpr ht
      simp [hnone] at hmem

/-- A write transaction that was handed out and is not active is not the manager's writer. -/
theorem Tracks.ne_writer (htracks : Tracks m h) (hbound : (issued h).length < int64Max)
    (hissued : t ∈ issued h) (hwrite : t.type = .write) (hactive : t ∉ active h) :
    m.activeWriteTransactionID ≠ t.ID := by
  intro heq
  have hID := htracks.ID_le hissued
  rw [htracks.length_issued] at hbound
  obtain ⟨_, ID⟩ := t
  dsimp only at hwrite heq hID
  subst hwrite
  exact hactive ((htracks.mem_writers_iff ID).mpr ⟨heq.symm, by omega⟩)

theorem Tracks.neutral {e : Event Client} (htracks : Tracks m h) (he : e.Neutral) :
    Tracks m (h ++ [e]) := by
  obtain ⟨hids, hreaders, hwriters, hissued⟩ := htracks
  constructor
  · simpa [he.2] using hids
  · simpa [he.1] using hreaders
  · simpa [he.1] using hwriters
  · simpa [he.1, he.2] using hissued

theorem Tracks.issued_ids_began (htracks : Tracks m h) (ht : t.ID = m.lastTransactionID + 1) :
    (issued (h ++ [.began c t])).map Transaction.ID = List.range' 1 (m.lastTransactionID + 1) := by
  have hids := htracks.issued_ids
  simp only [issued_append, List.map_append, hids, List.range'_concat]
  simp only [issued, List.filterMap_cons, List.filterMap_nil, List.map_cons, List.map_nil, ht,
    Nat.one_mul, Nat.add_comm]

theorem Tracks.active_issued_began (htracks : Tracks m h) :
    ∀ u ∈ active (h ++ [.began c t]), u ∈ issued (h ++ [.began c t]) := by
  intro u hu
  simp only [active_concat, activeAfter, Finset.mem_insert] at hu
  rcases hu with rfl | hu
  · simp [issued]
  · simp [htracks.active_issued u hu]

theorem Tracks.began {type : TransactionType} (htracks : Tracks m h)
    (hbegin : m.beginTransaction type = .ok (m', t))
    (hbound : m.lastTransactionID + 1 < int64Max) : Tracks m' (h ++ [.began c t]) := by
  have hnext : m.nextTransactionID = m.lastTransactionID + 1 := by
    unfold TransactionManager.nextTransactionID
    exact Nat.mod_eq_of_lt (by unfold int64Max at hbound; omega)
  cases type with
  | readOnly =>
      obtain ⟨rfl, rfl⟩ := TransactionManager.beginReadOnlyTransaction_eq_ok_iff.mp hbegin
      refine ⟨?_, ?_, ?_, htracks.active_issued_began⟩
      · simpa only [hnext] using htracks.issued_ids_began (t := ⟨_, m.nextTransactionID⟩) hnext
      · simp [activeAfter, htracks.mem_readers_iff]
      · simp [activeAfter, htracks.mem_writers_iff]
  | write =>
      obtain ⟨hnone, rfl, rfl⟩ := TransactionManager.beginWriteTransaction_eq_ok_iff.mp hbegin
      refine ⟨?_, ?_, ?_, htracks.active_issued_began⟩
      · simpa only [hnext] using htracks.issued_ids_began (t := ⟨_, m.nextTransactionID⟩) hnext
      · simp [activeAfter, htracks.mem_readers_iff]
      · intro ID
        simp only [active_concat, activeAfter, Finset.mem_insert, Transaction.mk.injEq, true_and,
          htracks.mem_writers_iff, hnone, and_not_self, or_false]
        constructor
        · rintro rfl
          exact ⟨rfl, by omega⟩
        · exact And.left

theorem FinishCall.body_of_foreign_writer {call : FinishCall} {log : Log} (ht : t.type = .write)
    (hne : m.activeWriteTransactionID ≠ t.ID) :
    call.body m log t = .error (m.wrongWriterMessage t) := by
  cases call with
  | commit | rollback => exact TransactionManager.commitOrRollback_of_ne ht hne
  | commitButKeepActiveWriteTransaction =>
      exact TransactionManager.commitOrRollbackNoLock_of_ne ht hne
  | manuallyClearActiveWriteTransaction =>
      exact TransactionManager.manuallyClearActiveWriteTransaction_of_ne hne

/-- What a finishing call that does not throw does to the active transactions. -/
theorem FinishCall.body_eq_ok {call : FinishCall} {log log' : Log}
    (hbody : call.body m log t = .ok (m', log')) :
    m'.lastTransactionID = m.lastTransactionID ∧
    ((t.type = .readOnly ∧ m'.activeWriteTransactionID = m.activeWriteTransactionID ∧
        m'.activeReadOnlyTransactionIDs =
          if call.endsTransaction t then m.activeReadOnlyTransactionIDs.erase t.ID
          else m.activeReadOnlyTransactionIDs) ∨
      (t.type = .write ∧ m.activeWriteTransactionID = t.ID ∧
        m'.activeReadOnlyTransactionIDs = m.activeReadOnlyTransactionIDs ∧
        m'.activeWriteTransactionID =
          if call.endsTransaction t then int64Max else m.activeWriteTransactionID)) := by
  cases ht : t.type with
  | readOnly =>
      cases call with
      | commit | rollback | commitButKeepActiveWriteTransaction =>
          simp only [FinishCall.body, TransactionManager.commit, TransactionManager.rollback,
            TransactionManager.commitButKeepActiveWriteTransaction,
            TransactionManager.commitOrRollback_of_readOnly ht,
            TransactionManager.commitOrRollbackNoLock_of_readOnly ht, Except.ok.injEq,
            Prod.mk.injEq] at hbody
          obtain ⟨rfl, rfl⟩ := hbody
          simp [FinishCall.endsTransaction, ht]
      | manuallyClearActiveWriteTransaction =>
          by_cases heq : m.activeWriteTransactionID = t.ID
          · simp only [FinishCall.body,
              TransactionManager.manuallyClearActiveWriteTransaction_of_eq heq,
              TransactionManager.clearActiveWriteTransaction_of_readOnly ht, Except.ok.injEq,
              Prod.mk.injEq] at hbody
            obtain ⟨rfl, rfl⟩ := hbody
            simp [FinishCall.endsTransaction, ht]
          · simp [FinishCall.body,
              TransactionManager.manuallyClearActiveWriteTransaction_of_ne heq] at hbody
  | write =>
      by_cases heq : m.activeWriteTransactionID = t.ID
      · cases call <;>
          simp only [FinishCall.body, TransactionManager.commit, TransactionManager.rollback,
            TransactionManager.commitButKeepActiveWriteTransaction,
            TransactionManager.commitOrRollback_of_eq ht heq,
            TransactionManager.commitOrRollbackNoLock_of_eq ht heq,
            TransactionManager.manuallyClearActiveWriteTransaction_of_eq heq,
            TransactionManager.clearActiveWriteTransaction_of_write ht, Except.ok.injEq,
            Prod.mk.injEq, if_true, Bool.false_eq_true, if_false] at hbody <;>
          obtain ⟨rfl, rfl⟩ := hbody <;>
          simp [FinishCall.endsTransaction, ht, heq]
      · rw [FinishCall.body_of_foreign_writer ht heq] at hbody
        simp at hbody

theorem Tracks.finished {call : FinishCall} {log log' : Log} (htracks : Tracks m h)
    (hbody : call.body m log t = .ok (m', log')) :
    Tracks m' (if call.endsTransaction t then h ++ [.ended t] else h) := by
  obtain ⟨hlast, hcases⟩ := FinishCall.body_eq_ok hbody
  obtain ⟨hids, hreaders, hwriters, hissued⟩ := htracks
  obtain ⟨type, ID⟩ := t
  cases hends : call.endsTransaction ⟨type, ID⟩ with
  | false =>
      simp only [hends, Bool.false_eq_true, if_false] at hcases ⊢
      rcases hcases with ⟨-, hwriter, hreader⟩ | ⟨-, -, hreader, hwriter⟩
      · exact ⟨hlast ▸ hids, hreader ▸ hreaders, hwriter ▸ hwriters, hissued⟩
      · exact ⟨hlast ▸ hids, hreader ▸ hreaders, hwriter ▸ hwriters, hissued⟩
  | true =>
      simp only [hends, if_true] at hcases ⊢
      have hids' : (issued (h ++ [.ended ⟨type, ID⟩])).map Transaction.ID =
          List.range' 1 m'.lastTransactionID := by
        rw [hlast, ← hids]
        simp [issued]
      have hissued' : ∀ u ∈ active (h ++ [.ended ⟨type, ID⟩]),
          u ∈ issued (h ++ [.ended ⟨type, ID⟩]) := by
        intro u hu
        have hu' : u ∈ active h := Finset.mem_of_mem_erase (by simpa [activeAfter] using hu)
        simp [hissued u hu']
      rcases hcases with ⟨rfl, hwriter, hreader⟩ | ⟨rfl, hID, hreader, hwriter⟩
      · refine ⟨hids', ?_, ?_, hissued'⟩
        · simp [activeAfter, hreader, hreaders]
        · simp [activeAfter, hwriter, hwriters]
      · refine ⟨hids', ?_, ?_, hissued'⟩
        · simp [activeAfter, hreader, hreaders]
        · intro u
          simp only [active_concat, activeAfter, Finset.mem_erase, hwriters, hwriter, hID]
          constructor
          · rintro ⟨hne, rfl, -⟩
            exact absurd rfl hne
          · rintro ⟨rfl, hne⟩
            exact absurd rfl hne

variable [DecidableEq Client]

/-- What the transaction protocol promises in a state. -/
structure SnapshotSafe (s : State Client) : Prop where
  /-- Identifiers are handed out in strictly increasing order. -/
  ids_increasing : ((issued s.history).map Transaction.ID).Pairwise (· < ·)
  /-- At most one write transaction is active. -/
  one_writer : ∀ t ∈ active s.history, ∀ u ∈ active s.history,
    t.type = .write → u.type = .write → t = u
  /-- A call for a write transaction that is not active throws and changes nothing else. -/
  foreign_writer : ∀ c call t, s.programPoint c = .finishBody call t → t.type = .write →
    t ∉ active s.history →
      step s (.advance c) =
        some ((s.record (.raised c (s.manager.wrongWriterMessage t))).goTo c .finishUnlockPublic)
  /-- From the return of the stop function to a writer until `Starting` is unlocked, only that
  writer's transaction is active. -/
  exclusive : ∀ h₁ c h₂ w, s.history = h₁ ++ .stopped c :: h₂ → (∀ d, .allowed d ∉ h₂) →
    w ∈ active h₁ → w.type = .write → ∀ t ∈ active s.history, t = w

/-! ## The effect of a step on the manager and the history -/

theorem Advances.effect (hstep : Advances s c s') :
    (∃ type, s.programPoint c = .beginBody type ∧
      s'.manager = (s.beginBody c type).manager ∧ s'.history = (s.beginBody c type).history) ∨
    (∃ call t, s.programPoint c = .finishBody call t ∧
      s'.manager = (s.finishBody c call t).manager ∧
      s'.history = (s.finishBody c call t).history) ∨
    (s'.manager = s.manager ∧
      (s'.history = s.history ∨ ∃ e, e.Neutral ∧ s'.history = s.history ++ [e])) := by
  cases hstep with
  | beginBody type hpoint => exact .inl ⟨type, hpoint, rfl, rfl⟩
  | finishBody call t hpoint => exact .inr (.inl ⟨call, t, hpoint, rfl, rfl⟩)
  | stopTimeout n message =>
      exact .inr (.inr ⟨rfl, .inr ⟨_, neutral_of_control (by simp) (by simp), rfl⟩⟩)
  | stopUnlockPublic timedOut =>
      refine .inr (.inr ⟨rfl, .inr ⟨_, neutral_of_control ?_ ?_, rfl⟩⟩)
      · cases timedOut <;> simp
      · cases timedOut <;> simp
  | allowUnlockStarting =>
      exact .inr (.inr ⟨rfl, .inr ⟨_, neutral_of_control (by simp) (by simp), rfl⟩⟩)
  | _ => exact .inr (.inr ⟨rfl, .inl rfl⟩)

/-! ## Preservation -/

/-- The invariant of all runs.  The manager agrees with the history while the identifiers stay
below the sentinel; transactions passed to a call were handed out before; a stop call that leaves
its loop normally has seen no reader, and its caller keeps `Starting` afterwards. -/
structure SnapshotInv (s : State Client) : Prop extends Ownership s where
  tracks : (issued s.history).length < int64Max → Tracks s.manager s.history
  finish_issued : ∀ c call t, s.programPoint c = .finishLockPublic call t ∨
    s.programPoint c = .finishBody call t → t ∈ issued s.history
  left_no_readers : ∀ c, s.programPoint c = .stopUnlockPublic false →
    s.manager.activeReadOnlyTransactionIDs = ∅
  stopped_owner : ∀ h₁ c h₂, s.history = h₁ ++ .stopped c :: h₂ → (∀ d, .allowed d ∉ h₂) →
    s.startingOwner = some c ∧
      ((s.programPoint c).holdsStarting → s.programPoint c = .allowUnlockStarting)
  stopped_active : ∀ h₁ c h₂, s.history = h₁ ++ .stopped c :: h₂ → (∀ d, .allowed d ∉ h₂) →
    (issued s.history).length < int64Max →
      ∀ t ∈ active s.history, ∀ w ∈ active h₁, w.type = .write → t = w

omit [DecidableEq Client] in
theorem snapshotInv_initial (timeout : ℕ) (log : Log) :
    SnapshotInv (initial timeout log : State Client) where
  toOwnership := ownership_initial timeout log
  tracks := by
    intro _
    constructor <;> simp [initial, issued]
  finish_issued := by simp [initial]
  left_no_readers := by simp [initial]
  stopped_owner := by simp [initial]
  stopped_active := by simp [initial]

/-- The events recorded by one step: none or one. -/
theorem Advances.history_suffix (hstep : Advances s c s') :
    s'.history = s.history ∨ ∃ e, s'.history = s.history ++ [e] := by
  rcases hstep.effect with ⟨type, -, -, hhist⟩ | ⟨call, t, -, -, hhist⟩ | ⟨-, hhist⟩
  · rw [hhist]
    unfold State.beginBody
    split <;> exact .inr ⟨_, rfl⟩
  · rw [hhist]
    unfold State.finishBody
    split
    · dsimp only
      split
      · exact .inr ⟨_, rfl⟩
      · exact .inl rfl
    · exact .inr ⟨_, rfl⟩
  · rcases hhist with hhist | ⟨e, -, hhist⟩
    · exact .inl hhist
    · exact .inr ⟨e, hhist⟩

theorem Advances.issued_prefix (hstep : Advances s c s') :
    issued s.history <+: issued s'.history := by
  rcases hstep.history_suffix with hhist | ⟨e, hhist⟩
  · rw [hhist]
  · rw [hhist, issued_append]
    exact List.prefix_append _ _

theorem SnapshotInv.tracks_advances (hs : SnapshotInv s) (hstep : Advances s c s')
    (hbound : (issued s'.history).length < int64Max) : Tracks s'.manager s'.history := by
  have hlength := hstep.issued_prefix.length_le
  have htracks := hs.tracks (by omega)
  rcases hstep.effect with ⟨type, -, hman, hhist⟩ | ⟨call, t, -, hman, hhist⟩ | ⟨hman, hhist⟩
  · rw [hman, hhist]
    rw [hhist] at hbound
    cases hbegin : s.manager.beginTransaction type with
    | ok p =>
        obtain ⟨m, t⟩ := p
        simp only [State.beginBody, hbegin, record_manager, record_history] at hbound ⊢
        refine htracks.began hbegin ?_
        have hlast := htracks.length_issued
        simp [issued] at hbound hlast
        omega
    | error message =>
        simp only [State.beginBody, hbegin, record_manager, record_history]
        exact htracks.neutral (neutral_of_control (by simp) (by simp))
  · rw [hman, hhist]
    cases hbody : call.body s.manager s.log t with
    | ok p =>
        obtain ⟨m, log⟩ := p
        have hfinished := htracks.finished hbody
        cases hends : call.endsTransaction t <;>
          simpa [State.finishBody, hbody, hends] using hfinished
    | error message =>
        simp only [State.finishBody, hbody, record_manager, record_history]
        exact htracks.neutral (neutral_of_control (by simp) (by simp))
  · rw [hman]
    rcases hhist with hhist | ⟨e, he, hhist⟩
    · rwa [hhist]
    · rw [hhist]
      exact htracks.neutral he

theorem SnapshotInv.finish_issued_advances (hs : SnapshotInv s) (hstep : Advances s c s')
    {call : FinishCall} (hpoint : s'.programPoint d = .finishLockPublic call t ∨
      s'.programPoint d = .finishBody call t) : t ∈ issued s'.history := by
  apply hstep.issued_prefix.subset
  by_cases hdc : d = c
  · subst hdc
    have hprev : s.programPoint d = .finishLockPublic call t := by
      cases hstep <;> simp_all
    exact hs.finish_issued d call t (.inl hprev)
  · rw [hstep.programPoint_of_ne hdc] at hpoint
    exact hs.finish_issued d call t hpoint

theorem SnapshotInv.left_no_readers_advances (hs : SnapshotInv s) (hstep : Advances s c s')
    (hpoint : s'.programPoint d = .stopUnlockPublic false) :
    s'.manager.activeReadOnlyTransactionIDs = ∅ := by
  by_cases hdc : d = c
  · subst hdc
    cases hstep with
    | stopLeft n _ hpoll =>
        by_contra hne
        simp only [goTo_manager] at hne
        simp only [TransactionManager.pollReadTransactions, hne, ne_eq, not_false_eq_true,
          if_true] at hpoll
        split at hpoll <;> simp at hpoll
    | _ => simp at hpoint
  · rw [hstep.programPoint_of_ne hdc] at hpoint
    have hd : (s.programPoint d).holdsPublic := by simp [hpoint, ProgramPoint.holdsPublic]
    have hc : ¬ (s.programPoint c).holdsPublic := fun hc ↦ hdc (hs.eq_of_holdsPublic hc hd)
    rw [hstep.manager_eq hc]
    exact hs.left_no_readers d hpoint

/-! ## The exclusive phase -/

omit [DecidableEq Client] in
theorem stopped_split {e : Event Client} (hsplit : h ++ [e] = h₁ ++ .stopped c :: h₂) :
    (h₂ = [] ∧ h = h₁ ∧ e = .stopped c) ∨
      ∃ h₃, h₂ = h₃ ++ [e] ∧ h = h₁ ++ .stopped c :: h₃ := by
  rcases List.eq_nil_or_concat h₂ with rfl | ⟨h₃, e', rfl⟩
  · obtain ⟨rfl, he⟩ := List.append_inj' hsplit rfl
    exact .inl ⟨rfl, rfl, by simpa using he⟩
  · rw [List.concat_eq_append, ← List.cons_append, ← List.append_assoc] at hsplit
    obtain ⟨rfl, he⟩ := List.append_inj' hsplit rfl
    obtain rfl : e = e' := by simpa using he
    exact .inr ⟨h₃, by simp, rfl⟩

theorem Advances.of_allowUnlockStarting (hstep : Advances s c s')
    (hpoint : s.programPoint c = .allowUnlockStarting) :
    s'.history = s.history ++ [.allowed c] := by
  cases hstep <;> simp_all [unlockStarting]

theorem Advances.of_stopped (hstep : Advances s c s')
    (hhist : s'.history = s.history ++ [.stopped d]) :
    d = c ∧ s.programPoint c = .stopUnlockPublic false ∧ s'.programPoint c = .idle ∧
      s'.startingOwner = s.startingOwner := by
  cases hstep with
  | beginBody type =>
      simp only [goTo_history, State.beginBody] at hhist
      split at hhist <;> simp at hhist
  | finishBody call t =>
      simp only [goTo_history, State.finishBody] at hhist
      split at hhist
      · split at hhist <;> simp at hhist
      · simp at hhist
  | stopUnlockPublic timedOut hpoint =>
      cases timedOut with
      | true => simp [unlockPublic] at hhist
      | false =>
          obtain rfl : c = d := by simpa [unlockPublic] using hhist
          simp [unlockPublic, hpoint]
  | _ => simp [unlockPublic, unlockStarting] at hhist

theorem Advances.of_began (hstep : Advances s c s')
    (hhist : s'.history = s.history ++ [.began d t]) :
    ∃ type, s.programPoint c = .beginBody type := by
  cases hstep with
  | beginBody type hpoint => exact ⟨type, hpoint⟩
  | finishBody call t =>
      simp only [goTo_history, State.finishBody] at hhist
      split at hhist
      · split at hhist <;> simp at hhist
      · simp at hhist
  | stopUnlockPublic timedOut hpoint => cases timedOut <;> simp [unlockPublic] at hhist
  | _ => simp [unlockPublic, unlockStarting] at hhist

/-- The client that has stopped new transactions gives `Starting` back only by
`allowReceivingNewTransactions`. -/
theorem Advances.keeps_starting (hstep : Advances s c s') (hs : Ownership s)
    (howner : s.startingOwner = some d)
    (hpoint : (s.programPoint d).holdsStarting → s.programPoint d = .allowUnlockStarting)
    (hallowed : s'.history ≠ s.history ++ [.allowed d]) :
    s'.startingOwner = some d ∧
      ((s'.programPoint d).holdsStarting → s'.programPoint d = .allowUnlockStarting) := by
  have hstays : ∀ hd : d = c, ¬ (s.programPoint c).holdsStarting := by
    rintro rfl hholds
    exact hallowed (hstep.of_allowUnlockStarting (hpoint hholds))
  rcases hstep.starting_effect with ⟨hfree, _, _⟩ | ⟨hheld, _, _⟩ | ⟨hown, hpt⟩
  · simp [howner] at hfree
  · exact absurd hheld (hstays (hs.eq_of_holdsStarting hheld howner))
  · refine ⟨hown.trans howner, fun hholds ↦ ?_⟩
    by_cases hdc : d = c
    · subst hdc
      exact absurd (hpt hholds) (hstays rfl)
    · rw [hstep.programPoint_of_ne hdc] at hholds ⊢
      exact hpoint hholds

theorem SnapshotInv.stopped_owner_advances (hs : SnapshotInv s) (hstep : Advances s c s')
    (hsplit : s'.history = h₁ ++ .stopped d :: h₂) (hallowed : ∀ b, .allowed b ∉ h₂) :
    s'.startingOwner = some d ∧
      ((s'.programPoint d).holdsStarting → s'.programPoint d = .allowUnlockStarting) := by
  rcases hstep.history_suffix with hhist | ⟨e, hhist⟩
  · obtain ⟨howner, hpoint⟩ := hs.stopped_owner h₁ d h₂ (hhist ▸ hsplit) hallowed
    exact hstep.keeps_starting hs.toOwnership howner hpoint (by simp [hhist])
  · rcases stopped_split (hhist ▸ hsplit) with ⟨rfl, rfl, rfl⟩ | ⟨h₃, rfl, hprev⟩
    · obtain ⟨rfl, hpoint, hidle, hown⟩ := hstep.of_stopped hhist
      have howner := hs.startingOwner_of_holds d (by simp [hpoint, ProgramPoint.holdsStarting])
      exact ⟨hown.trans howner, by simp [hidle, ProgramPoint.holdsStarting]⟩
    · obtain ⟨howner, hpoint⟩ := hs.stopped_owner h₁ d h₃ hprev
        fun b hb ↦ hallowed b (List.mem_append_left _ hb)
      refine hstep.keeps_starting hs.toOwnership howner hpoint fun heq ↦ ?_
      obtain rfl : e = .allowed d := by simpa [hhist] using heq
      exact hallowed d (by simp)

theorem SnapshotInv.stopped_active_advances (hs : SnapshotInv s) (hstep : Advances s c s')
    (hsplit : s'.history = h₁ ++ .stopped d :: h₂) (hallowed : ∀ b, .allowed b ∉ h₂)
    (hbound : (issued s'.history).length < int64Max) (ht : t ∈ active s'.history)
    (hw : w ∈ active h₁) (hwrite : w.type = .write) : t = w := by
  have hlength := hstep.issued_prefix.length_le
  have hbound' : (issued s.history).length < int64Max := by omega
  rcases hstep.history_suffix with hhist | ⟨e, hhist⟩
  · exact hs.stopped_active h₁ d h₂ (hhist ▸ hsplit) hallowed hbound' t (hhist ▸ ht) w hw hwrite
  · rw [hhist, active_concat] at ht
    rcases stopped_split (hhist ▸ hsplit) with ⟨rfl, rfl, rfl⟩ | ⟨h₃, rfl, hprev⟩
    · obtain ⟨rfl, hpoint, -⟩ := hstep.of_stopped hhist
      have htracks := hs.tracks hbound'
      have hnoReader := hs.left_no_readers d hpoint
      exact htracks.eq_of_write ht hw (htracks.write_of_no_readers hnoReader ht) hwrite
    · have hallowed' : ∀ b, .allowed b ∉ h₃ := fun b hb ↦ hallowed b (List.mem_append_left _ hb)
      have hactive : t ∈ active s.history := by
        cases e with
        | began b u =>
            -- A beginning client would hold `Starting` inside the begin function.
            obtain ⟨type, hbegin⟩ := hstep.of_began hhist
            obtain ⟨howner, hpoint⟩ := hs.stopped_owner h₁ d h₃ hprev hallowed'
            have hholds : (s.programPoint c).holdsStarting := by
              simp [hbegin, ProgramPoint.holdsStarting]
            obtain rfl := hs.eq_of_holdsStarting hholds howner
            simp [hbegin] at hpoint hholds
            exact absurd hholds (by simpa using hpoint)
        | ended u => exact Finset.mem_of_mem_erase ht
        | raised | stopped | timedOut | allowed => exact ht
      exact hs.stopped_active h₁ d h₃ hprev hallowed' hbound' t hactive w hw hwrite

theorem SnapshotInv.advances (hs : SnapshotInv s) (hstep : Advances s c s') : SnapshotInv s' where
  toOwnership := hs.toOwnership.advances hstep
  tracks := hs.tracks_advances hstep
  finish_issued := fun _ _ _ hpoint ↦ hs.finish_issued_advances hstep hpoint
  left_no_readers := fun _ hpoint ↦ hs.left_no_readers_advances hstep hpoint
  stopped_owner := fun _ _ _ hsplit hallowed ↦ hs.stopped_owner_advances hstep hsplit hallowed
  stopped_active := fun _ _ _ hsplit hallowed hbound _ ht _ hw hwrite ↦
    hs.stopped_active_advances hstep hsplit hallowed hbound ht hw hwrite

theorem SnapshotInv.call {call : Call} (hs : SnapshotInv s) (hidle : s.programPoint c = .idle)
    (hcall : Callable s c call) : SnapshotInv (s.goTo c call.entry) where
  toOwnership := hs.toOwnership.call hidle hcall
  tracks := hs.tracks
  finish_issued := by
    intro d finish t hpoint
    by_cases hdc : d = c
    · subst hdc
      cases call with
      | finish call u =>
          obtain ⟨-, rfl⟩ : call = finish ∧ u = t := by simpa [Call.entry] using hpoint
          exact hcall
      | _ => simp [Call.entry] at hpoint
    · rw [goTo_programPoint_of_ne _ hdc] at hpoint
      exact hs.finish_issued d finish t hpoint
  left_no_readers := by
    intro d hpoint
    have hdc : d ≠ c := by
      rintro rfl
      cases call <;> simp [Call.entry] at hpoint
    rw [goTo_programPoint_of_ne _ hdc] at hpoint
    exact hs.left_no_readers d hpoint
  stopped_owner := by
    intro h₁ d h₂ hsplit hallowed
    obtain ⟨howner, hpoint⟩ := hs.stopped_owner h₁ d h₂ hsplit hallowed
    refine ⟨howner, ?_⟩
    by_cases hdc : d = c
    · subst hdc
      cases call <;> simp [Call.entry, ProgramPoint.holdsStarting]
    · rwa [goTo_programPoint_of_ne _ hdc]
  stopped_active := hs.stopped_active

theorem SnapshotInv.step {a : Action Client} (hs : SnapshotInv s) (hstep : step s a = some s') :
    SnapshotInv s' := by
  cases a with
  | call c call =>
      obtain ⟨⟨hidle, hcall⟩, rfl⟩ := step_call_eq_some_iff.mp hstep
      exact hs.call hidle hcall
  | advance c => exact hs.advances (advances_of_advance hstep)

theorem SnapshotInv.of_reachable (hs : Reachable s) : SnapshotInv s := by
  obtain ⟨timeout, log, actions, hrun⟩ := hs
  exact Lib.run_invariant (fun _ _ _ hs hstep ↦ hs.step hstep) (snapshotInv_initial timeout log)
    hrun

theorem SnapshotInv.foreign_writer (hs : SnapshotInv s)
    (hbound : (issued s.history).length < int64Max) {call : FinishCall}
    (hpoint : s.programPoint c = .finishBody call t) (hwrite : t.type = .write)
    (hactive : t ∉ active s.history) :
    TransactionSystem.step s (.advance c) =
      some ((s.record (.raised c (s.manager.wrongWriterMessage t))).goTo c
        .finishUnlockPublic) := by
  have hne := (hs.tracks hbound).ne_writer hbound (hs.finish_issued c call t (.inr hpoint)) hwrite
    hactive
  simp only [TransactionSystem.step, advance, hpoint, State.finishBody,
    FinishCall.body_of_foreign_writer hwrite hne]

/-- The transaction protocol is safe in every reachable state in which fewer than `INT64_MAX`
transactions have begun. -/
theorem snapshotSafe_of_reachable (hs : Reachable s)
    (hbound : (issued s.history).length < int64Max) : SnapshotSafe s := by
  have hinv := SnapshotInv.of_reachable hs
  have htracks := hinv.tracks hbound
  constructor
  · rw [htracks.issued_ids]
    exact List.pairwise_lt_range'
  · exact fun t ht u hu ↦ htracks.eq_of_write ht hu
  · exact fun c call t hpoint hwrite hactive ↦ hinv.foreign_writer hbound hpoint hwrite hactive
  · exact fun h₁ c h₂ w hsplit hallowed hw hwrite t ht ↦
      hinv.stopped_active h₁ c h₂ hsplit hallowed hbound t ht w hw hwrite

/-- A writer begins, stops new transactions and polls; a reader asks to begin meanwhile. -/
def checkpointWhileReaderBegins : List (Action Bool) :=
  [.call false (.begin .write), .advance false, .advance false, .advance false, .advance false,
    .advance false, .call true (.begin .readOnly),
    .call false .stopNewTransactionsAndWaitUntilAllReadTransactionsLeave, .advance false,
    .advance false, .advance false, .advance false]

theorem snapshotSafe_checkpointWhileReaderBegins :
    ∃ s : State Bool, Lib.run step (initial 5000000 []) checkpointWhileReaderBegins = some s ∧
      s.history = [.began false ⟨.write, 1⟩, .stopped false] ∧ SnapshotSafe s := by
  refine ⟨_, rfl, rfl, snapshotSafe_of_reachable ⟨5000000, [], checkpointWhileReaderBegins, rfl⟩ ?_⟩
  decide

/-! ## Calls without interference

A call whose steps are not interleaved with those of other clients has the effect of its body. -/

/-- No client holds a mutex and `c` is not inside a call. -/
def Undisturbed (s : State Client) (c : Client) : Prop :=
  s.programPoint c = .idle ∧ s.startingOwner = none ∧ s.publicOwner = none

theorem run_begin (type : TransactionType) (hs : Undisturbed s c) :
    Lib.run step s (.call c (.begin type) :: List.replicate 5 (.advance c)) =
      some (s.beginBody c type) := by
  obtain ⟨m, log, startingOwner, publicOwner, programPoint, history⟩ := s
  obtain ⟨hidle, hstarting, hpublic⟩ := hs
  dsimp only at hidle hstarting hpublic
  subst hstarting hpublic
  cases hbegin : m.beginTransaction type <;>
    simp [List.replicate, Lib.run, step, advance, Callable, Call.entry, hidle, State.goTo,
      lockStarting, lockPublic, unlockStarting, unlockPublic, State.beginBody, hbegin,
      State.record]

theorem run_finish (call : FinishCall) (hs : Undisturbed s c) (ht : t ∈ issued s.history) :
    Lib.run step s (.call c (.finish call t) :: List.replicate 3 (.advance c)) =
      some (s.finishBody c call t) := by
  obtain ⟨m, log, startingOwner, publicOwner, programPoint, history⟩ := s
  obtain ⟨hidle, hstarting, hpublic⟩ := hs
  dsimp only at hidle hstarting hpublic ht
  subst hstarting hpublic
  cases hbody : call.body m log t <;> cases hends : call.endsTransaction t <;>
    simp [List.replicate, Lib.run, step, advance, Callable, Call.entry, hidle, ht, State.goTo,
      lockPublic, unlockPublic, State.finishBody, hbody, hends, State.record]

theorem Reachable.run {actions : List (Action Client)} (hs : Reachable s)
    (hrun : Lib.run step s actions = some s') : Reachable s' := by
  obtain ⟨timeout, log, before, hbefore⟩ := hs
  exact ⟨timeout, log, before ++ actions, by rw [Lib.run_append_of_eq_some hbefore, hrun]⟩

/-! ## The identifier that equals the sentinel -/

/-- A single client can use up any number of identifiers by reading. -/
theorem exists_reachable_lastTransactionID (n : ℕ) (hn : n < int64Max) :
    ∃ s : State Unit, Reachable s ∧ Undisturbed s () ∧ s.manager.lastTransactionID = n ∧
      s.manager.activeWriteTransactionID = int64Max := by
  induction n with
  | zero => exact ⟨initial 5000000 [], ⟨5000000, [], [], rfl⟩, ⟨rfl, rfl, rfl⟩, rfl, rfl⟩
  | succ n ih =>
      obtain ⟨s, hreach, hs, hlast, hwriter⟩ := ih (by omega)
      have hnext : s.manager.nextTransactionID = n + 1 := by
        unfold TransactionManager.nextTransactionID
        rw [hlast]
        exact Nat.mod_eq_of_lt (by unfold int64Max at hn; omega)
      have hbegun := hreach.run (run_begin .readOnly hs)
      have hundisturbed : Undisturbed (s.beginBody () .readOnly) () := by
        simpa [Undisturbed] using hs
      have hissued : ⟨.readOnly, n + 1⟩ ∈ issued (s.beginBody () .readOnly).history := by
        simp [State.beginBody, TransactionManager.beginTransaction,
          TransactionManager.beginReadOnlyTransaction, issued, hnext]
      refine ⟨_, hbegun.run (run_finish .commit hundisturbed hissued), ?_, ?_, ?_⟩
      · simpa [Undisturbed] using hundisturbed
      all_goals
        simp [State.finishBody, FinishCall.body, TransactionManager.commit,
          TransactionManager.commitOrRollback_of_readOnly, FinishCall.endsTransaction,
          State.beginBody, TransactionManager.beginTransaction,
          TransactionManager.beginReadOnlyTransaction, hnext, hwriter]

/-- The writer whose identifier is `INT64_MAX` is taken for no writer at all, and a second one can
begin beside it. -/
theorem not_snapshotSafe_at_sentinel :
    ¬ ∀ s : State Unit, Reachable s → SnapshotSafe s := by
  intro hsafe
  obtain ⟨s, hreach, hs, hlast, hwriter⟩ :=
    exists_reachable_lastTransactionID (int64Max - 1) (by decide)
  have hnext : s.manager.nextTransactionID = int64Max := by
    simp [TransactionManager.nextTransactionID, hlast, int64Max]
  have hfirst := hreach.run (run_begin .write hs)
  have hundisturbed : Undisturbed (s.beginBody () .write) () := by simpa [Undisturbed] using hs
  have hsecond := hfirst.run (run_begin .write hundisturbed)
  have hbody : s.beginBody () .write =
      { s with manager := { s.manager with
          lastTransactionID := int64Max
          activeWriteTransactionID := int64Max } }.record (.began () ⟨.write, int64Max⟩) := by
    simp [State.beginBody, TransactionManager.beginTransaction,
      TransactionManager.beginWriteTransaction,
      TransactionManager.hasActiveWriteTransactionNoLock, hwriter, hnext]
  have hnext' : (int64Max + 1) % 2 ^ 64 = int64Max + 1 := by decide
  have hactive : active ((s.beginBody () .write).beginBody () .write).history =
      insert ⟨.write, int64Max + 1⟩ (insert ⟨.write, int64Max⟩ (active s.history)) := by
    rw [hbody]
    simp only [State.beginBody, TransactionManager.beginTransaction,
      TransactionManager.beginWriteTransaction, TransactionManager.nextTransactionID,
      TransactionManager.hasActiveWriteTransactionNoLock, record_manager, record_history, hnext',
      bne_self_eq_false, Bool.false_eq_true, if_false, active_concat, activeAfter]
  have hone := (hsafe _ hsecond).one_writer ⟨.write, int64Max⟩ (by simp [hactive])
    ⟨.write, int64Max + 1⟩ (by simp [hactive]) rfl rfl
  simp at hone

end Graphflow.TransactionSystem
