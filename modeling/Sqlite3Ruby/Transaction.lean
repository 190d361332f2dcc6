import Sqlite3Ruby.Ruby.Exception

/-!
# `Database#transaction`

The Ruby methods `transaction`, `commit` and `rollback` over what SQLite keeps
for one connection. SQLite answers each statement with a status; the answers
to BEGIN, COMMIT and ROLLBACK are parameters, so every outcome it allows is
covered.

## Implementation notes

The body of `transaction` has one `rescue` without a class list, one `raise`
and one `ensure`. They appear here as the flag `abort`, the exit of the block
kept for re-raising, and the rule that an exception from the `ensure` clause
replaces that exit.
-/

namespace Sqlite3Ruby

/-- What SQLite holds for one connection: the permanent content of the database
and, while a transaction is open, the content seen inside it. -/
structure Connection (C : Type) where
  content : C
  txn : Option C := none
  deriving DecidableEq, Repr

namespace Connection

variable {C : Type}

/-- The content that a statement on this connection reads. -/
def view (db : Connection C) : C := db.txn.getD db.content

/-- `transaction_active_p`: SQLite is not in autocommit mode. -/
def transactionActive (db : Connection C) : Bool := db.txn.isSome

/-- A statement writes into the open transaction, or permanently in autocommit mode. -/
def put (db : Connection C) (c : C) : Connection C :=
  match db.txn with
  | some _ => { db with txn := some c }
  | none => { db with content := c }

@[simp] theorem view_put (db : Connection C) (c : C) : (db.put c).view = c := by
  cases h : db.txn <;> simp [put, view, h]

@[simp] theorem transactionActive_put (db : Connection C) (c : C) :
    (db.put c).transactionActive = db.transactionActive := by
  cases h : db.txn <;> simp [put, transactionActive, h]

theorem put_of_inactive {db : Connection C} (c : C) (h : db.txn = none) :
    db.put c = ⟨c, none⟩ := by
  simp [put, h]

theorem put_of_active {db : Connection C} {c : C} (c' : C) (h : db.txn = some c) :
    db.put c' = ⟨db.content, some c'⟩ := by
  simp [put, h]

/-- Writing back what the connection reads changes nothing. -/
@[simp] theorem put_view (db : Connection C) : db.put db.view = db := by
  obtain ⟨content, txn⟩ := db
  cases txn <;> rfl

theorem content_put (db : Connection C) (c : C) (h : db.transactionActive = true) :
    (db.put c).content = db.content := by
  obtain ⟨c', hc'⟩ := Option.isSome_iff_exists.mp h
  simp [put, hc']

end Connection

/-- Ruby code that runs on a connection. -/
abbrev DbM (C : Type) := RubyM (Connection C)

namespace Transaction

/-- How SQLite answers a COMMIT or a ROLLBACK of an open transaction: it ends
it, it fails and leaves it open, or it fails having rolled it back itself. -/
inductive EndAnswer
  | done
  | stillOpen (status : ErrorStatus)
  | rolledBack (status : ErrorStatus)

/-- SQLite answered by rolling the transaction back itself. -/
def EndAnswer.isRolledBack : EndAnswer → Bool
  | rolledBack _ => true
  | _ => false

/-- SQLite refused to end the transaction. -/
def EndAnswer.isStillOpen : EndAnswer → Bool
  | stillOpen _ => true
  | _ => false

/-- The part of SQLite that `transaction` meets: the answer to a BEGIN text in
autocommit mode (`none` when it starts a transaction), the answers to COMMIT and
ROLLBACK of an open transaction, and the error message. -/
structure Sqlite where
  begin_ : String → Option ErrorStatus
  commit : EndAnswer
  rollback : EndAnswer
  errmsg : String

/-- `SQLITE_ERROR`, the answer to a BEGIN inside a transaction and to a COMMIT or
ROLLBACK outside one. -/
def sqliteError : ErrorStatus := ⟨1, by decide⟩

variable {C V : Type} (sqlite : Sqlite)

/-- `execute` of a statement that SQLite answers with an error status. -/
def fail (status : ErrorStatus) : DbM C Unit := fun db => (check status.1 sqlite.errmsg, db)

/-- `execute "begin #{mode} transaction"`. -/
def executeBegin (mode : String) : DbM C Unit := fun db =>
  if db.transactionActive then fail sqlite sqliteError db
  else
    match sqlite.begin_ ("begin " ++ mode ++ " transaction") with
    | none => (.ok (), { db with txn := some db.content })
    | some status => fail sqlite status db

/-- `commit`: `execute "commit transaction"`, then `true`. -/
def commit : DbM C Bool := do
  (fun db =>
    match db.txn with
    | none => fail sqlite sqliteError db
    | some c =>
        match sqlite.commit with
        | .done => (.ok (), ⟨c, none⟩)
        | .stillOpen status => fail sqlite status db
        | .rolledBack status => fail sqlite status { db with txn := none } : DbM C Unit)
  pure true

/-- `rollback`: `execute "rollback transaction"`, then `true`. -/
def rollback : DbM C Bool := do
  (fun db =>
    match db.txn with
    | none => fail sqlite sqliteError db
    | some _ =>
        match sqlite.rollback with
        | .done => (.ok (), { db with txn := none })
        | .stillOpen status => fail sqlite status db
        | .rolledBack status => fail sqlite status { db with txn := none } : DbM C Unit)
  pure true

/-- The `ensure` clause `abort and rollback or commit`. -/
def endTransaction (abort : Bool) : DbM C Bool := do
  let aborted ← if abort then rollback sqlite else pure false
  if aborted then pure true else commit sqlite

/-- `abort` is set by the bare `rescue`, hence only for a `StandardError`. -/
def abortOf (exit : Outcome V) : Bool :=
  match exit with
  | .raise e => e.isStandardError
  | _ => false

/-- `transaction(mode)` with a block. -/
def transaction (defaultMode : String) (mode : Option String) (block : DbM C V) : DbM C V := do
  executeBegin sqlite (mode.getD defaultMode)
  fun db =>
    let (exit, db) := block db
    match endTransaction sqlite (abortOf exit) db with
    | (.ok _, db) => (exit, db)
    | (.raise e, db) => (.raise e, db)
    | (.jump tag, db) => (.jump tag, db)

/-- A failing statement raises a `StandardError` and leaves the connection alone. -/
theorem fail_run (status : ErrorStatus) (db : Connection C) :
    ∃ e, fail sqlite status db = (.raise e, db) ∧ e.isStandardError = true := by
  obtain ⟨e, he, hstd⟩ := check_errorStatus status sqlite.errmsg
  exact ⟨e, by simp only [fail, he], hstd⟩

theorem executeBegin_run_ok {db : Connection C} (mode : String) (hdb : db.txn = none)
    (hbegin : sqlite.begin_ ("begin " ++ mode ++ " transaction") = none) :
    executeBegin sqlite mode db = (.ok (), { db with txn := some db.content }) := by
  simp [executeBegin, Connection.transactionActive, hdb, hbegin]

theorem executeBegin_run_fail (db : Connection C) (mode : String) (hdb : db.txn = none)
    {status : ErrorStatus}
    (hbegin : sqlite.begin_ ("begin " ++ mode ++ " transaction") = some status) :
    ∃ e, executeBegin sqlite mode db = (.raise e, db) := by
  obtain ⟨e, he, -⟩ := fail_run sqlite status db
  exact ⟨e, by simp [executeBegin, Connection.transactionActive, hdb, hbegin, he]⟩

/-- Without an open transaction a COMMIT raises and changes nothing. -/
theorem commit_run_inactive {db : Connection C} (hdb : db.txn = none) :
    ∃ e, commit sqlite db = (.raise e, db) := by
  obtain ⟨e, he, -⟩ := fail_run sqlite sqliteError db
  exact ⟨e, RubyM.bind_run_raise _ (by simp only [hdb, he])⟩

theorem commit_run_done {db : Connection C} {c : C} (hdb : db.txn = some c)
    (hcommit : sqlite.commit = .done) : commit sqlite db = (.ok true, ⟨c, none⟩) :=
  RubyM.bind_run_ok () _ (by simp only [hdb, hcommit])

/-- A COMMIT that fails leaves the transaction open, or SQLite has rolled it back. -/
theorem commit_run_fail {db : Connection C} {c : C} (hdb : db.txn = some c)
    (hcommit : sqlite.commit ≠ .done) :
    ∃ e, commit sqlite db = (.raise e,
      if sqlite.commit.isRolledBack then { db with txn := none } else db) := by
  cases h : sqlite.commit with
  | done => exact absurd h hcommit
  | stillOpen status =>
      obtain ⟨e, he, -⟩ := fail_run sqlite status db
      exact ⟨e, RubyM.bind_run_raise _ (by simp [EndAnswer.isRolledBack, hdb, h, he])⟩
  | rolledBack status =>
      obtain ⟨e, he, -⟩ := fail_run sqlite status { db with txn := none }
      exact ⟨e, RubyM.bind_run_raise _ (by simp [EndAnswer.isRolledBack, hdb, h, he])⟩

theorem rollback_run_inactive {db : Connection C} (hdb : db.txn = none) :
    ∃ e, rollback sqlite db = (.raise e, db) := by
  obtain ⟨e, he, -⟩ := fail_run sqlite sqliteError db
  exact ⟨e, RubyM.bind_run_raise _ (by simp only [hdb, he])⟩

theorem rollback_run_done {db : Connection C} {c : C} (hdb : db.txn = some c)
    (hroll : sqlite.rollback = .done) :
    rollback sqlite db = (.ok true, { db with txn := none }) :=
  RubyM.bind_run_ok () _ (by simp only [hdb, hroll])

/-- A ROLLBACK that fails leaves the transaction open, or SQLite has rolled it back. -/
theorem rollback_run_fail {db : Connection C} {c : C} (hdb : db.txn = some c)
    (hroll : sqlite.rollback ≠ .done) :
    ∃ e, rollback sqlite db = (.raise e,
      if sqlite.rollback.isStillOpen then db else { db with txn := none }) := by
  cases h : sqlite.rollback with
  | done => exact absurd h hroll
  | stillOpen status =>
      obtain ⟨e, he, -⟩ := fail_run sqlite status db
      exact ⟨e, RubyM.bind_run_raise _ (by simp [EndAnswer.isStillOpen, hdb, h, he])⟩
  | rolledBack status =>
      obtain ⟨e, he, -⟩ := fail_run sqlite status { db with txn := none }
      exact ⟨e, RubyM.bind_run_raise _ (by simp [EndAnswer.isStillOpen, hdb, h, he])⟩

theorem endTransaction_false : endTransaction (C := C) sqlite false = commit sqlite := rfl

/-- `abort and rollback or commit` never commits after a rollback that returned. -/
theorem endTransaction_true {db db' : Connection C}
    (h : rollback sqlite db = (.ok true, db')) :
    endTransaction sqlite true db = (.ok true, db') := by
  rw [endTransaction, if_pos rfl, RubyM.bind_run_ok _ _ h]
  rfl

theorem endTransaction_true_raise {db db' : Connection C} {e : RubyException}
    (h : rollback sqlite db = (.raise e, db')) :
    endTransaction sqlite true db = (.raise e, db') := by
  rw [endTransaction, if_pos rfl, RubyM.bind_run_raise _ h]

/-- What `endTransaction` leaves of an open transaction after a `StandardError`. -/
theorem endTransaction_true_snd {db : Connection C} {c : C} (hdb : db.txn = some c) :
    (endTransaction sqlite true db).2 =
      if sqlite.rollback.isStillOpen then db else { db with txn := none } := by
  by_cases hdone : sqlite.rollback = .done
  · rw [endTransaction_true sqlite (rollback_run_done sqlite hdb hdone), hdone]
    rfl
  · obtain ⟨e, he⟩ := rollback_run_fail sqlite hdb hdone
    rw [endTransaction_true_raise sqlite he]

/-- The three things the end of a block does to the connection: nothing, a
rollback, or a commit of what the transaction holds. -/
theorem endTransaction_cases (abort : Bool) (db : Connection C) :
    (endTransaction sqlite abort db).2 = db ∨
      (endTransaction sqlite abort db).2 = { db with txn := none } ∨
        ∃ c, db.txn = some c ∧ (endTransaction sqlite abort db).2 = ⟨c, none⟩ := by
  cases hdb : db.txn with
  | none =>
      left
      cases abort with
      | true =>
          obtain ⟨e, he⟩ := rollback_run_inactive sqlite hdb
          rw [endTransaction_true_raise sqlite he]
      | false =>
          obtain ⟨e, he⟩ := commit_run_inactive sqlite hdb
          rw [endTransaction_false, he]
  | some c =>
      cases abort with
      | true =>
          rw [endTransaction_true_snd sqlite hdb]
          split
          · exact .inl rfl
          · exact .inr (.inl rfl)
      | false =>
          rw [endTransaction_false]
          by_cases hdone : sqlite.commit = .done
          · exact .inr (.inr ⟨c, rfl, by rw [commit_run_done sqlite hdb hdone]⟩)
          · obtain ⟨e, he⟩ := commit_run_fail sqlite hdb hdone
            rw [he]
            split
            · exact .inr (.inl rfl)
            · exact .inl rfl

/-! ## A block that writes -/

/-- What one write statement does to the content it runs on: it succeeds, it
fails leaving some content behind, or it fails and SQLite rolls the whole
transaction back (`ON CONFLICT ROLLBACK`, `SQLITE_FULL`). -/
inductive WriteResult (C : Type)
  | done (c : C)
  | failed (c : C)
  | rolledBack

/-- A write statement of a block. -/
def Write (C : Type) := C → WriteResult C

/-- Run one write; an error it raises is left to the block. -/
def Write.run (w : Write C) (db : Connection C) : Connection C :=
  match w db.view with
  | .done c => db.put c
  | .failed c => db.put c
  | .rolledBack => { db with txn := none }

/-- Run the writes of a block in order. -/
def runWrites (writes : List (Write C)) (db : Connection C) : Connection C :=
  writes.foldl (fun db w => w.run db) db

/-- A block that issues `writes`, none of them BEGIN, COMMIT or ROLLBACK, and then exits. -/
def writesBlock (writes : List (Write C)) (exit : Outcome V) : DbM C V := fun db =>
  (exit, runWrites writes db)

/-- The connection when the block exits, if it was begun on the content `c₀`. -/
def atExit (c₀ : C) (writes : List (Write C)) : Connection C :=
  runWrites writes ⟨c₀, some c₀⟩

/-- The content one write leaves in a transaction begun on `c₀`. -/
def Write.result (c₀ : C) (w : Write C) (c : C) : C :=
  match w c with
  | .done c => c
  | .failed c => c
  | .rolledBack => c₀

/-- The content that the writes of a transaction begun on `c₀` produce. -/
def produced (c₀ : C) (writes : List (Write C)) : C :=
  writes.foldl (fun c w => w.result c₀ c) c₀

/-- A write never opens a transaction. -/
theorem Write.active_of_run {w : Write C} {db : Connection C}
    (h : (w.run db).transactionActive = true) : db.transactionActive = true := by
  rw [Write.run] at h
  cases hw : w db.view with
  | done c => simpa only [hw, Connection.transactionActive_put] using h
  | failed c => simpa only [hw, Connection.transactionActive_put] using h
  | rolledBack => simp [hw, Connection.transactionActive] at h

theorem active_of_runWrites {writes : List (Write C)} {db : Connection C}
    (h : (runWrites writes db).transactionActive = true) : db.transactionActive = true := by
  induction writes generalizing db with
  | nil => exact h
  | cons w ws ih =>
      have hw : (runWrites ws (w.run db)).transactionActive = true := h
      exact Write.active_of_run (ih hw)

/-- While the transaction stays open a write changes its view only. -/
theorem Write.run_of_active {w : Write C} {db : Connection C}
    (h : (w.run db).transactionActive = true) :
    (w.run db).content = db.content ∧ (w.run db).view = w.result db.content db.view := by
  have hdb : db.transactionActive = true := Write.active_of_run h
  rw [Write.run] at h ⊢
  rw [Write.result]
  cases hw : w db.view with
  | done c => exact ⟨db.content_put c hdb, db.view_put c⟩
  | failed c => exact ⟨db.content_put c hdb, db.view_put c⟩
  | rolledBack => simp [hw, Connection.transactionActive] at h

/-- As long as SQLite has not ended the transaction, the permanent content is
still that of the BEGIN and the view is what the writes made of it. -/
theorem runWrites_of_active {writes : List (Write C)} {db : Connection C}
    (h : (runWrites writes db).transactionActive = true) :
    (runWrites writes db).content = db.content ∧
      (runWrites writes db).view =
        writes.foldl (fun c w => w.result db.content c) db.view := by
  induction writes generalizing db with
  | nil => exact ⟨rfl, rfl⟩
  | cons w ws ih =>
      have hws : (runWrites ws (w.run db)).transactionActive = true := h
      obtain ⟨hcontent, hview⟩ := Write.run_of_active (active_of_runWrites hws)
      obtain ⟨ihc, ihv⟩ := ih hws
      rw [hcontent] at ihc ihv
      rw [hview] at ihv
      exact ⟨ihc, ihv⟩

/-- The transaction of a block, still open at its exit, holds exactly what the writes produced. -/
theorem atExit_of_active {c₀ : C} {writes : List (Write C)}
    (h : (atExit c₀ writes).transactionActive = true) :
    atExit c₀ writes = ⟨c₀, some (produced c₀ writes)⟩ := by
  obtain ⟨hcontent, hview⟩ := runWrites_of_active h
  obtain ⟨c, hc⟩ := Option.isSome_iff_exists.mp h
  have hc' : (atExit c₀ writes).view = c := by simp [Connection.view, hc]
  have hp : c = produced c₀ writes := hc'.symm.trans hview
  cases hx : atExit c₀ writes with
  | mk content txn =>
      have hcontent' : (atExit c₀ writes).content = c₀ := hcontent
      simp only [hx] at hc hcontent'
      rw [hcontent', hc, hp]

/-! ## All or nothing -/

/-- A transaction block is all or nothing: a block that raised leaves the
content of the BEGIN, both permanently and as the connection reads it, and a
block that finished and was committed leaves exactly what its writes produced. -/
def AllOrNothing (c₀ : C) (writes : List (Write C)) (exit : Outcome V)
    (after : Outcome V × Connection C) : Prop :=
  match exit with
  | .ok _ => after.1.Returns →
      after.2.content = produced c₀ writes ∧ after.2.view = produced c₀ writes
  | .raise _ => after.2.content = c₀ ∧ after.2.view = c₀
  | .jump _ => True

/-- The call `transaction(mode) { writes; exit }` on a database with content `c₀`. -/
def callOn (c₀ : C) (defaultMode : String) (mode : Option String) (writes : List (Write C))
    (exit : Outcome V) : Outcome V × Connection C :=
  transaction sqlite defaultMode mode (writesBlock writes exit) ⟨c₀, none⟩

/-- The call once the BEGIN succeeded: the `ensure` clause decides the rest. -/
theorem transaction_run {defaultMode : String} {mode : Option String} (block : DbM C V) (c : C)
    (hbegin : sqlite.begin_ ("begin " ++ mode.getD defaultMode ++ " transaction") = none) :
    transaction sqlite defaultMode mode block ⟨c, none⟩ =
      match endTransaction sqlite (abortOf (block ⟨c, some c⟩).1) (block ⟨c, some c⟩).2 with
      | (.ok _, db) => ((block ⟨c, some c⟩).1, db)
      | (.raise e, db) => (.raise e, db)
      | (.jump tag, db) => (.jump tag, db) :=
  RubyM.bind_run_ok () _ (executeBegin_run_ok sqlite _ rfl hbegin)

theorem callOn_eq {c₀ : C} {defaultMode : String} {mode : Option String}
    {writes : List (Write C)} {exit : Outcome V}
    (hbegin : sqlite.begin_ ("begin " ++ mode.getD defaultMode ++ " transaction") = none) :
    callOn sqlite c₀ defaultMode mode writes exit =
      match endTransaction sqlite (abortOf exit) (atExit c₀ writes) with
      | (.ok _, db) => (exit, db)
      | (.raise e, db) => (.raise e, db)
      | (.jump tag, db) => (.jump tag, db) :=
  transaction_run sqlite (writesBlock writes exit) c₀ hbegin

/-- If SQLite refuses the BEGIN the block does not run and nothing changes. -/
theorem callOn_begin_fails (c₀ : C) {defaultMode : String} {mode : Option String}
    (writes : List (Write C)) (exit : Outcome V) {status : ErrorStatus}
    (hbegin : sqlite.begin_ ("begin " ++ mode.getD defaultMode ++ " transaction") = some status) :
    ∃ e, callOn sqlite c₀ defaultMode mode writes exit = (.raise e, ⟨c₀, none⟩) := by
  obtain ⟨e, he⟩ :=
    executeBegin_run_fail sqlite ⟨c₀, none⟩ (mode.getD defaultMode) rfl hbegin
  exact ⟨e, RubyM.bind_run_raise _ he⟩

/-- The condition under which a block that raises leaves the content of the
BEGIN: it had no net effect, or its transaction is still open and is rolled
back, by the `rescue` for a `StandardError` or by SQLite on a failing COMMIT. -/
def RollsBack (c₀ : C) (writes : List (Write C)) (e : RubyException) : Prop :=
  (atExit c₀ writes).view = c₀ ∨
    ((atExit c₀ writes).transactionActive = true ∧
      (e.isStandardError = true ∨ sqlite.commit.isRolledBack = true))

/-- After its transaction is over, a connection reads its permanent content. -/
theorem view_of_inactive {db : Connection C} (h : db.txn = none) : db.view = db.content := by
  simp [Connection.view, h]

/-- A block that raised and was rolled back by `rescue`, ended on its content at the BEGIN. -/
theorem callOn_raise_standardError {c₀ : C} {defaultMode : String} {mode : Option String}
    {writes : List (Write C)} {e : RubyException}
    (hbegin : sqlite.begin_ ("begin " ++ mode.getD defaultMode ++ " transaction") = none)
    (hroll : sqlite.rollback = .done) (hstd : e.isStandardError = true) :
    AllOrNothing c₀ writes (.raise e : Outcome V)
        (callOn sqlite c₀ defaultMode mode writes (.raise e)) ↔
      RollsBack sqlite c₀ writes e := by
  rw [callOn_eq sqlite hbegin]
  simp only [abortOf, hstd, RollsBack, AllOrNothing, true_or, and_true]
  cases htxn : (atExit c₀ writes).txn with
  | none =>
      obtain ⟨e', he'⟩ := rollback_run_inactive sqlite htxn
      simp [endTransaction_true_raise sqlite he', Connection.transactionActive, htxn,
        view_of_inactive htxn]
  | some c =>
      have hact : (atExit c₀ writes).transactionActive = true := by
        simp [Connection.transactionActive, htxn]
      have hexit := atExit_of_active hact
      rw [endTransaction_true sqlite (rollback_run_done sqlite htxn hroll)]
      simp only [hact, or_true, iff_true]
      rw [hexit]
      exact ⟨rfl, rfl⟩

/-- A block that raised outside `StandardError` is committed. -/
theorem callOn_raise_other {c₀ : C} {defaultMode : String} {mode : Option String}
    {writes : List (Write C)} {e : RubyException}
    (hbegin : sqlite.begin_ ("begin " ++ mode.getD defaultMode ++ " transaction") = none)
    (hstd : e.isStandardError = false) :
    AllOrNothing c₀ writes (.raise e : Outcome V)
        (callOn sqlite c₀ defaultMode mode writes (.raise e)) ↔
      RollsBack sqlite c₀ writes e := by
  rw [callOn_eq sqlite hbegin]
  simp only [abortOf, hstd, RollsBack, AllOrNothing, endTransaction_false, Bool.false_eq_true,
    false_or]
  cases htxn : (atExit c₀ writes).txn with
  | none =>
      obtain ⟨e', he'⟩ := commit_run_inactive sqlite htxn
      simp [he', Connection.transactionActive, htxn, view_of_inactive htxn]
  | some c =>
      have hact : (atExit c₀ writes).transactionActive = true := by
        simp [Connection.transactionActive, htxn]
      have hexit := atExit_of_active hact
      rw [hexit] at htxn ⊢
      by_cases hdone : sqlite.commit = .done
      · rw [commit_run_done sqlite htxn hdone, Option.some.inj htxn]
        simp [hdone, Connection.view, EndAnswer.isRolledBack]
      · obtain ⟨e', he'⟩ := commit_run_fail sqlite htxn hdone
        rw [he']
        cases hrb : sqlite.commit.isRolledBack with
        | true => simp [Connection.view, Connection.transactionActive]
        | false => simp [Connection.view]

/-- A block that finished is committed with exactly what it wrote, whenever `transaction` returns. -/
theorem callOn_ok {c₀ : C} {defaultMode : String} {mode : Option String}
    {writes : List (Write C)} {v : V}
    (hbegin : sqlite.begin_ ("begin " ++ mode.getD defaultMode ++ " transaction") = none) :
    AllOrNothing c₀ writes (.ok v) (callOn sqlite c₀ defaultMode mode writes (.ok v)) := by
  rw [callOn_eq sqlite hbegin]
  simp only [abortOf, AllOrNothing, endTransaction_false]
  cases htxn : (atExit c₀ writes).txn with
  | none =>
      obtain ⟨e', he'⟩ := commit_run_inactive sqlite htxn
      simp [he']
  | some c =>
      have hact : (atExit c₀ writes).transactionActive = true := by
        simp [Connection.transactionActive, htxn]
      have hexit := atExit_of_active hact
      rw [hexit] at htxn ⊢
      by_cases hdone : sqlite.commit = .done
      · rw [commit_run_done sqlite htxn hdone, Option.some.inj htxn]
        simp [Connection.view]
      · obtain ⟨e', he'⟩ := commit_run_fail sqlite htxn hdone
        simp [he']

/-- A transaction block is all or nothing exactly when a block that raises has
no net effect or is rolled back; one that raises outside `StandardError` while
its transaction is open is committed instead. -/
theorem transaction_allOrNothing_iff (hroll : sqlite.rollback = .done) (c₀ : C)
    (defaultMode : String) (mode : Option String) (writes : List (Write C)) (exit : Outcome V) :
    AllOrNothing c₀ writes exit (callOn sqlite c₀ defaultMode mode writes exit) ↔
      ∀ e, exit = .raise e →
        sqlite.begin_ ("begin " ++ mode.getD defaultMode ++ " transaction") = none →
          RollsBack sqlite c₀ writes e := by
  cases hbegin : sqlite.begin_ ("begin " ++ mode.getD defaultMode ++ " transaction") with
  | some status =>
      obtain ⟨e, he⟩ := callOn_begin_fails sqlite c₀ writes exit hbegin
      cases exit <;> simp [AllOrNothing, he, Connection.view]
  | none =>
      cases exit with
      | ok v => simpa using callOn_ok sqlite hbegin
      | jump tag => simp [AllOrNothing]
      | raise e =>
          simp only [Outcome.raise.injEq, forall_eq', forall_const]
          cases hstd : e.isStandardError with
          | true => exact callOn_raise_standardError sqlite hbegin hroll hstd
          | false => exact callOn_raise_other sqlite hbegin hstd

/-- A SQLite that carries out every BEGIN, COMMIT and ROLLBACK. -/
def willing : Sqlite := ⟨fun _ => none, .done, .done, ""⟩

/-- One more row, on a database whose content is its number of rows. -/
def insertRow : Write Nat := fun rows => .done (rows + 1)

/-- A block that inserts a row into an empty table and is then interrupted
leaves the row committed. -/
theorem interrupted_block_is_committed :
    ¬ AllOrNothing 0 [insertRow] (.raise ⟨.Interrupt, ""⟩ : Outcome Unit)
      (callOn willing 0 "deferred" none [insertRow] (.raise ⟨.Interrupt, ""⟩)) := by
  intro h
  exact absurd h.1 (by decide)

theorem failing_block_is_rolled_back :
    AllOrNothing 0 [insertRow] (.raise ⟨.ArgumentError, ""⟩ : Outcome Unit)
      (callOn willing 0 "deferred" none [insertRow] (.raise ⟨.ArgumentError, ""⟩)) := by
  apply (transaction_allOrNothing_iff willing rfl 0 "deferred" none [insertRow] _).mpr
  rintro e he -
  obtain rfl := Outcome.raise.inj he
  exact .inr ⟨rfl, .inl rfl⟩

/-! ## No transaction is left open -/

/-- SQLite's answer to the statement of the `ensure` clause. -/
def endAnswer (abort : Bool) : EndAnswer :=
  if abort then sqlite.rollback else sqlite.commit

/-- A transaction that is still open at the exit of the block stays open exactly
when SQLite refuses to end it. -/
theorem endTransaction_transactionActive {db : Connection C} {c : C} (hdb : db.txn = some c)
    (abort : Bool) :
    (endTransaction sqlite abort db).2.transactionActive =
      (endAnswer sqlite abort).isStillOpen := by
  cases abort with
  | true =>
      rw [endTransaction_true_snd sqlite hdb]
      cases hopen : sqlite.rollback.isStillOpen with
      | true => simp [endAnswer, hopen, Connection.transactionActive, hdb]
      | false => simp [endAnswer, hopen, Connection.transactionActive]
  | false =>
      rw [endTransaction_false]
      cases hcommit : sqlite.commit with
      | done =>
          rw [commit_run_done sqlite hdb hcommit]
          simp [endAnswer, hcommit, EndAnswer.isStillOpen, Connection.transactionActive]
      | stillOpen status =>
          obtain ⟨e, he⟩ := commit_run_fail sqlite hdb (by simp [hcommit])
          rw [he]
          simp [endAnswer, hcommit, EndAnswer.isStillOpen, EndAnswer.isRolledBack,
            Connection.transactionActive, hdb]
      | rolledBack status =>
          obtain ⟨e, he⟩ := commit_run_fail sqlite hdb (by simp [hcommit])
          rw [he]
          simp [endAnswer, hcommit, EndAnswer.isStillOpen, EndAnswer.isRolledBack,
            Connection.transactionActive]

/-- Outside a transaction the `ensure` clause starts none. -/
theorem endTransaction_inactive {db : Connection C} (hdb : db.txn = none) (abort : Bool) :
    (endTransaction sqlite abort db).2.transactionActive = false := by
  obtain h | h | ⟨c, hc, -⟩ := endTransaction_cases sqlite abort db
  · rw [h, Connection.transactionActive, hdb]
    rfl
  · rw [h]
    rfl
  · exact absurd (hdb.symm.trans hc) (by simp)

/-- The connection after `transaction` is as the `ensure` clause left it. -/
theorem transaction_snd {defaultMode : String} {mode : Option String} (block : DbM C V) (c : C)
    (hbegin : sqlite.begin_ ("begin " ++ mode.getD defaultMode ++ " transaction") = none) :
    (transaction sqlite defaultMode mode block ⟨c, none⟩).2 =
      (endTransaction sqlite (abortOf (block ⟨c, some c⟩).1) (block ⟨c, some c⟩).2).2 := by
  rw [transaction_run sqlite block c hbegin]
  cases endTransaction sqlite (abortOf (block ⟨c, some c⟩).1) (block ⟨c, some c⟩).2 with
  | mk o db => cases o <;> rfl

/-- A call with a block leaves no transaction open exactly when, of a block whose
transaction is open at its exit, SQLite does not refuse the end. -/
theorem transaction_closed_iff (defaultMode : String) (mode : Option String) (block : DbM C V)
    (c : C) :
    (transaction sqlite defaultMode mode block ⟨c, none⟩).2.transactionActive = false ↔
      (sqlite.begin_ ("begin " ++ mode.getD defaultMode ++ " transaction") = none →
        (block ⟨c, some c⟩).2.transactionActive = true →
          (endAnswer sqlite (abortOf (block ⟨c, some c⟩).1)).isStillOpen = false) := by
  cases hbegin : sqlite.begin_ ("begin " ++ mode.getD defaultMode ++ " transaction") with
  | some status =>
      obtain ⟨e, he⟩ := executeBegin_run_fail sqlite ⟨c, none⟩ (mode.getD defaultMode) rfl hbegin
      have hrun : transaction sqlite defaultMode mode block ⟨c, none⟩ = (.raise e, ⟨c, none⟩) :=
        RubyM.bind_run_raise _ he
      simp [hrun, Connection.transactionActive]
  | none =>
      rw [transaction_snd sqlite block c hbegin]
      cases htxn : (block ⟨c, some c⟩).2.txn with
      | none =>
          rw [endTransaction_inactive sqlite htxn]
          simp [Connection.transactionActive, htxn]
      | some c' =>
          rw [endTransaction_transactionActive sqlite htxn]
          simp [Connection.transactionActive, htxn]

/-- A SQLite whose database is locked by a reader when the COMMIT comes. -/
def busyAtCommit : Sqlite :=
  { willing with commit := .stillOpen ⟨5, by decide⟩, errmsg := "database is locked" }

/-- A block that inserts a row and finishes, and a COMMIT that finds the database busy. -/
theorem busyCommit_stays_open :
    ¬ (callOn busyAtCommit 0 "deferred" none [insertRow] (.ok ())).2.transactionActive = false := by
  decide

end Transaction

end Sqlite3Ruby
