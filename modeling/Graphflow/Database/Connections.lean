import Graphflow.Database.Rollback

/-!
# Connections

The calls that the connections of `connection.cpp` make on one database.  A connection has at most
one active transaction, which the transaction manager knows too; ending a write transaction is left
to the database.
-/

namespace Graphflow

open Wal Storage

variable {Page : Type}

structure Connections (Page : Type) where
  database : Database Page
  activeTransaction : ℕ → Option Transaction := fun _ ↦ none

/-- What a connection is asked to do.  An update stands for the part of a query that makes it. -/
inductive Call (Page : Type)
  | beginTransaction (type : TransactionType)
  | update (update : Update Page)
  | commitOrRollback (isCommit : Bool) (input : CommitInput Page)

namespace Connections

def setActiveTransaction (s : Connections Page) (c : ℕ) (t : Option Transaction) :
    Connections Page :=
  { s with activeTransaction := Function.update s.activeTransaction c t }

/-- A call that throws because there is a transaction already changes nothing; it does not come back
while new transactions are stopped. -/
def beginTransaction (s : Connections Page) (c : ℕ) (type : TransactionType) :
    Option (Connections Page) :=
  if s.activeTransaction c ≠ none then some s
  else if s.database.stoppedNewTransactions then none
  else match s.database.transactionManager.beginTransaction type with
    | .ok (m, t) =>
        some ({ s with database := { s.database with transactionManager := m }
                }.setActiveTransaction c (some t))
    | .error _ => some s

/-- `commitOrRollbackNoLock`.  When the transaction manager throws, the transaction stays with the
connection; `none` is a call that does not come back. -/
def commitOrRollback (s : Connections Page) (c : ℕ) (isCommit : Bool) (input : CommitInput Page) :
    Option (Connections Page) :=
  match s.activeTransaction c with
  | none => some s
  | some t =>
      if t.type = .write then
        match s.database.commitAndCheckpointOrRollback t isCommit input with
        | .ok db => some ({ s with database := db }.setActiveTransaction c none)
        | .error (.threw db _) => some { s with database := db }
        | .error _ => none
      else
        match s.database.transactionManager.commitOrRollback s.database.wal.records t isCommit with
        | .ok (m, _) =>
            some ({ s with database := { s.database with transactionManager := m }
                    }.setActiveTransaction c none)
        | .error _ => some s

/-- One call of connection `a.1`. -/
def step (s : Connections Page) (a : ℕ × Call Page) : Option (Connections Page) :=
  match a.2 with
  | .beginTransaction type => s.beginTransaction a.1 type
  | .update update =>
      match s.activeTransaction a.1, s.database.perform update with
      | some ⟨.write, _⟩, .ok db => some { s with database := db }
      | _, _ => none
  | .commitOrRollback isCommit input => s.commitOrRollback a.1 isCommit input

end Connections

/-! ## The parts of the end of a write transaction -/

namespace Database

variable {db db' db₁ db₂ : Database Page} {t : Transaction} {isCommit : Bool}
  {input : CommitInput Page}

/-- What `commitAndCheckpointOrRollback` does before the log is replayed. -/
def prepareToReplay (db : Database Page) (t : Transaction) (isCommit : Bool)
    (input : CommitInput Page) : Except (Interruption Page) (Database Page) := do
  let db ← liftFault (db.prepare isCommit input)
  if isCommit then
    let db ← db.stopNewTransactionsAndWaitUntilAllReadTransactionsLeave
    db.commitButKeepActiveWriteTransaction t
  else return db

theorem commitAndCheckpointOrRollback_eq (db : Database Page) (t : Transaction) (isCommit : Bool)
    (input : CommitInput Page) :
    db.commitAndCheckpointOrRollback t isCommit input = (do
      let db₁ ← db.prepareToReplay t isCommit input
      let db₂ ← liftFault (db₁.checkpointOrRollbackAndClearWAL isCommit input db.catalog.write)
      let db₃ ← db₂.manuallyClearActiveWriteTransaction t
      return if isCommit then db₃.allowReceivingNewTransactions else db₃) := by
  cases isCommit with
  | false =>
      simp only [commitAndCheckpointOrRollback, prepareToReplay, Bool.false_eq_true, if_false,
        bind_pure]
  | true =>
      simp only [commitAndCheckpointOrRollback, prepareToReplay, if_true, bind_assoc]

end Database

end Graphflow
