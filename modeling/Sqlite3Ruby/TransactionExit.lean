import Sqlite3Ruby.Transaction

/-!
# What leaves `Database#transaction`

The `ensure` clause of `transaction` runs a statement while the exit of the block is on
its way. When this statement raises, its exception leaves instead.

## Implementation notes

A block can close the database, which rolls its transaction back. What leaves says where
it comes from, since an exception of the clause is another object than one of the block,
also when it looks the same.
-/

namespace Sqlite3Ruby.Transaction

/-- A `Database`, which can be closed. -/
structure Handle (C : Type) where
  isOpen : Bool
  connection : Connection C

abbrev HandleM (C : Type) := RubyM (Handle C)

/-- What leaves `transaction`: the exit of its block, or one that the method made itself. -/
inductive Leaving (V : Type)
  | ofBlock (exit : Outcome V)
  | ofMethod (exit : Outcome V)

def Leaving.exit {V : Type} : Leaving V → Outcome V
  | ofBlock exit => exit
  | ofMethod exit => exit

variable {C V α : Type} (sqlite : Sqlite)

namespace Handle

/-- `Database#execute`: a closed database prepares nothing. -/
def execute (statement : DbM C α) : HandleM C α := fun h =>
  if h.isOpen then
    let (o, connection) := statement h.connection
    (o, { h with connection })
  else (.raise ⟨.ArgumentError, "prepare called on a closed database"⟩, h)

/-- `Database#close`. -/
def close : HandleM C Unit := RubyM.modify fun h => ⟨false, { h.connection with txn := none }⟩

/-- `abort and rollback or commit`. -/
def endTransaction (abort : Bool) : HandleM C Bool := do
  let aborted ← if abort then execute (rollback sqlite) else pure false
  if aborted then pure true else execute (commit sqlite)

/-- `transaction(mode)` with a block. -/
def transaction (defaultMode : String) (mode : Option String) (block : HandleM C V) (h : Handle C) :
    Leaving V × Handle C :=
  match execute (executeBegin sqlite (mode.getD defaultMode)) h with
  | (.raise e, h) => (.ofMethod (.raise e), h)
  | (.jump tag, h) => (.ofMethod (.jump tag), h)
  | (.ok (), h) =>
      let (exit, h) := block h
      match endTransaction sqlite (abortOf exit) h with
      | (.ok _, h) => (.ofBlock exit, h)
      | (.raise e, h) => (.ofMethod (.raise e), h)
      | (.jump tag, h) => (.ofMethod (.jump tag), h)

end Handle

/-! ## An open database -/

namespace Handle

/-- Code that leaves the database open. -/
def onConnection (code : DbM C α) : HandleM C α := fun h =>
  let (o, connection) := code h.connection
  (o, { h with connection })

theorem execute_open (statement : DbM C α) (connection : Connection C) :
    execute statement ⟨true, connection⟩ =
      ((statement connection).1, ⟨true, (statement connection).2⟩) := rfl

/-- As long as the database is open the `ensure` clause is that of its connection. -/
theorem endTransaction_open (abort : Bool) (connection : Connection C) :
    endTransaction sqlite abort ⟨true, connection⟩ =
      ((Transaction.endTransaction sqlite abort connection).1,
        ⟨true, (Transaction.endTransaction sqlite abort connection).2⟩) := by
  cases abort with
  | false => rfl
  | true =>
      have hrun : execute (rollback sqlite) (⟨true, connection⟩ : Handle C) = _ :=
        execute_open (rollback sqlite) connection
      rw [endTransaction, Transaction.endTransaction, if_pos rfl, if_pos rfl]
      rcases hrollback : rollback sqlite connection with ⟨o, connection'⟩
      rw [hrollback] at hrun
      cases o with
      | raise e => rw [RubyM.bind_run_raise _ hrun, RubyM.bind_run_raise _ hrollback]
      | jump tag => rw [RubyM.bind_run_jump _ hrun, RubyM.bind_run_jump _ hrollback]
      | ok aborted =>
          rw [RubyM.bind_run_ok _ _ hrun, RubyM.bind_run_ok _ _ hrollback]
          cases aborted <;> rfl

/-- With a block that leaves the database open, `transaction` is that of its connection. -/
theorem transaction_open (defaultMode : String) (mode : Option String) (block : DbM C V)
    (connection : Connection C) :
    (Transaction.transaction sqlite defaultMode mode block connection).1 =
        (transaction sqlite defaultMode mode (onConnection block) ⟨true, connection⟩).1.exit ∧
      (transaction sqlite defaultMode mode (onConnection block) ⟨true, connection⟩).2 =
        ⟨true, (Transaction.transaction sqlite defaultMode mode block connection).2⟩ := by
  rw [transaction, execute_open]
  rcases hbegin : executeBegin sqlite (mode.getD defaultMode) connection with ⟨o, connection'⟩
  cases o with
  | raise e =>
      have hrun : Transaction.transaction sqlite defaultMode mode block connection =
        (.raise e, connection') := RubyM.bind_run_raise _ hbegin
      rw [hrun]
      exact ⟨rfl, rfl⟩
  | jump tag =>
      have hrun : Transaction.transaction sqlite defaultMode mode block connection =
        (.jump tag, connection') := RubyM.bind_run_jump _ hbegin
      rw [hrun]
      exact ⟨rfl, rfl⟩
  | ok u =>
      have hrun : Transaction.transaction sqlite defaultMode mode block connection = _ :=
        RubyM.bind_run_ok u _ hbegin
      have hend := endTransaction_open sqlite (abortOf (block connection').1) (block connection').2
      rw [hrun]
      simp only [onConnection, hend]
      rcases Transaction.endTransaction sqlite (abortOf (block connection').1) (block connection').2
        with ⟨o, connection''⟩
      cases o <;> exact ⟨rfl, rfl⟩

end Handle

/-! ## The exception of the block -/

theorem endTransaction_returns_iff (abort : Bool) (connection : Connection C) :
    (endTransaction sqlite abort connection).1.Returns ↔
      connection.transactionActive = true ∧ endAnswer sqlite abort = .done := by
  cases htxn : connection.txn with
  | none =>
      have hactive : ¬ connection.transactionActive = true := by
        simp [Connection.transactionActive, htxn]
      refine iff_of_false ?_ fun h => hactive h.1
      cases abort with
      | true =>
          obtain ⟨e, he⟩ := rollback_run_inactive sqlite htxn
          rw [endTransaction_true_raise sqlite he]
          exact Outcome.not_returns_raise e
      | false =>
          obtain ⟨e, he⟩ := commit_run_inactive sqlite htxn
          rw [endTransaction_false, he]
          exact Outcome.not_returns_raise e
  | some c =>
      have hactive : connection.transactionActive = true := by
        simp [Connection.transactionActive, htxn]
      rw [and_iff_right hactive]
      cases abort with
      | true =>
          by_cases hdone : sqlite.rollback = .done
          · rw [endTransaction_true sqlite (rollback_run_done sqlite htxn hdone)]
            exact iff_of_true (Outcome.returns_ok _) hdone
          · obtain ⟨e, he⟩ := rollback_run_fail sqlite htxn hdone
            rw [endTransaction_true_raise sqlite he]
            exact iff_of_false (Outcome.not_returns_raise e) hdone
      | false =>
          rw [endTransaction_false]
          by_cases hdone : sqlite.commit = .done
          · rw [commit_run_done sqlite htxn hdone]
            exact iff_of_true (Outcome.returns_ok _) hdone
          · obtain ⟨e, he⟩ := commit_run_fail sqlite htxn hdone
            rw [he]
            exact iff_of_false (Outcome.not_returns_raise e) hdone

namespace Handle

/-- SQLite carries out the statement that ends the transaction. -/
def CanEnd (abort : Bool) (h : Handle C) : Prop :=
  h.isOpen = true ∧ h.connection.transactionActive = true ∧ endAnswer sqlite abort = .done

theorem endTransaction_returns_iff (abort : Bool) (h : Handle C) :
    (endTransaction sqlite abort h).1.Returns ↔ CanEnd sqlite abort h := by
  obtain ⟨isOpen, connection⟩ := h
  cases isOpen with
  | false =>
      refine iff_of_false ?_ fun hend => Bool.false_ne_true hend.1
      cases abort <;> exact Outcome.not_returns_raise _
  | true =>
      rw [endTransaction_open]
      exact (Transaction.endTransaction_returns_iff sqlite abort connection).trans
        (and_iff_right rfl).symm

/-- An exception of the block leaves `transaction` exactly when the statement that ends the
transaction then succeeds: the block has not closed the database, its transaction is still
open, and SQLite carries out the ROLLBACK, or the COMMIT after an exception that is no
`StandardError`. -/
theorem transaction_exception_iff {defaultMode : String} {mode : Option String}
    {block : HandleM C V} {h h₁ h₂ : Handle C} {e : RubyException}
    (hbegin : execute (executeBegin sqlite (mode.getD defaultMode)) h = (.ok (), h₁))
    (hblock : block h₁ = (.raise e, h₂)) :
    (transaction sqlite defaultMode mode block h).1 = .ofBlock (.raise e) ↔
      CanEnd sqlite e.isStandardError h₂ := by
  rw [← endTransaction_returns_iff, transaction, hbegin]
  simp only [hblock, abortOf]
  rcases endTransaction sqlite e.isStandardError h₂ with ⟨o, h₃⟩
  cases o with
  | ok ended => exact iff_of_true rfl (Outcome.returns_ok ended)
  | raise e' =>
      refine iff_of_false ?_ (Outcome.not_returns_raise e')
      intro hleaves
      cases hleaves
  | jump tag =>
      refine iff_of_false ?_ (Outcome.not_returns_jump tag)
      intro hleaves
      cases hleaves

end Handle

/-- A block that raises and leaves the rest to `transaction`. -/
def raising : HandleM Nat Unit := RubyM.lift (.raise ⟨.ArgumentError, ""⟩)

theorem raising_leaves :
    (Handle.transaction willing "deferred" none raising ⟨true, ⟨0, none⟩⟩).1 =
      .ofBlock (.raise ⟨.ArgumentError, ""⟩) :=
  (Handle.transaction_exception_iff willing rfl rfl).mpr ⟨rfl, rfl, rfl⟩

example :
    (Handle.transaction willing "deferred" none
      (do Handle.close
          raising) ⟨true, ⟨0, none⟩⟩).1 =
      .ofMethod (.raise ⟨.ArgumentError, "prepare called on a closed database"⟩) := rfl

/-- `insert or rollback` of a row that violates a constraint. -/
def insertOrRollback : HandleM Nat Unit := fun h =>
  (.raise ⟨.subclass "SQLite3::ConstraintException" .SQLite3Exception, "CHECK constraint failed"⟩,
    ⟨h.isOpen, { h.connection with txn := none }⟩)

/-- The exception for the constraint is lost. -/
theorem constraint_is_masked :
    ¬ ∀ e, (insertOrRollback ⟨true, ⟨0, some 0⟩⟩).1 = .raise e →
      (Handle.transaction willing "deferred" none insertOrRollback ⟨true, ⟨0, none⟩⟩).1 =
        .ofBlock (.raise e) := by
  intro h
  cases h _ rfl

end Sqlite3Ruby.Transaction
