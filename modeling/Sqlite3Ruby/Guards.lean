import Sqlite3Ruby.Lib.Handles

/-!
# The guards of `Database`, `Statement` and `Backup`

Each method looks whether its object has a native handle before it passes the handle to
SQLite. The conversion of an argument, a callback of SQLite or a block may run any Ruby
code in between.

## Implementation notes

The number of an object stands for an object that has been allocated, whose fields are
all clear at first. Where the arguments of a call to SQLite are converted in the call,
the handle is taken to be read after them.
-/

namespace Sqlite3Ruby.Guards

abbrev DbId := Nat
abbrev StmtId := Nat
abbrev BackupId := Nat

/-- The native handle of an object: `db`, `st` or `p` of its context struct. -/
inductive Handle
  | db (d : DbId)
  | st (s : StmtId)
  | p (b : BackupId)
  deriving DecidableEq

/-- The other fields. `db` is the context struct of the database of a statement. -/
structure Fields where
  db : StmtId → Option DbId
  doneP : StmtId → Bool
  discarded : DbId → Bool

abbrev Code := Handles.Code Handle Fields

open Handles.Operand
open Handles.Code

def Fields.setDb (s : StmtId) (d : DbId) (f : Fields) : Fields :=
  { f with db := Function.update f.db s (some d) }

def Fields.setDoneP (s : StmtId) (doneP : Bool) (f : Fields) : Fields :=
  { f with doneP := Function.update f.doneP s doneP }

def Fields.setDiscarded (d : DbId) (f : Fields) : Fields :=
  { f with discarded := Function.update f.discarded d true }

/-- The database of the statement is discarded. -/
def Fields.isDiscarded (s : StmtId) (f : Fields) : Bool := (f.db s).any f.discarded

/-! ## The macros -/

/-- `REQUIRE_OPEN_DB`. -/
def requireOpenDb (d : DbId) (next : Code) : Code := requireSet (.db d) next

/-- `REQUIRE_CLOSED_DB`. -/
def requireClosedDb (d : DbId) (next : Code) : Code := requireClear (.db d) next

/-- `REQUIRE_OPEN_STMT`. -/
def requireOpenStmt (s : StmtId) (next : Code) : Code := requireSet (.st s) next

/-- `REQUIRE_LIVE_DB`. -/
def requireLiveDb (s : StmtId) (next : Code) : Code :=
  follow (fun f => (f.db s).isSome) (test (·.isDiscarded s) raised next)

/-- `REQUIRE_OPEN_BACKUP`. -/
def requireOpenBackup (b : BackupId) (next : Code) : Code := requireSet (.p b) next

/-- `CHECK(ctx->db, status)`: `sqlite3_errmsg` is asked when there is an error. -/
def check (d : DbId) (next : Code) : Code := either next (pass [field (.db d)] raised)

/-- `CHECK(sqlite3_db_handle(ctx->st), status)`. -/
def checkStmt (s : StmtId) (next : Code) : Code := pass [field (.st s)] (either next raised)

/-- `CHECK_MSG`, which has the message already. -/
def checkMsg (next : Code) : Code := either next raised

/-! ## `Database` -/

/-- A call of SQLite with the connection. -/
def passDb (d : DbId) (next : Code) : Code := pass [field (.db d)] next

/-- A method that asks SQLite for one thing. -/
def askDb (d : DbId) : Code := requireOpenDb d (passDb d done)

/-- `Database.new`: `rb_sqlite3_open_v2` or `rb_sqlite3_open16`, with what Ruby does to the
arguments before it. -/
def openDb (d : DbId) : Code :=
  foreign (requireClosedDb d (foreign (create (.db d) done
    (passDb d (destroy (.db d) (clear (.db d) (checkMsg done)))))))

def disableQuirkMode (d : DbId) : Code := ifSet (.db d) (passDb d (passDb d done)) done

/-- `discard_db`. -/
def discardDb (d : DbId) (next : Code) : Code :=
  passDb d (passAll [field (.db d)] (passDb d (clear (.db d) (update (.setDiscarded d) next))))

/-- `close_or_discard_db`. It depends on the process which of the two it is. -/
def closeOrDiscardDb (d : DbId) (next : Code) : Code :=
  ifSet (.db d)
    (either (destroy (.db d) (clear (.db d) next)) (discardDb d next))
    next

def closeDb (d : DbId) : Code := closeOrDiscardDb d done

def totalChanges (d : DbId) : Code := askDb d

def lastInsertRowId (d : DbId) : Code := askDb d

def interrupt (d : DbId) : Code := askDb d

def errmsg (d : DbId) : Code := askDb d

def errcode (d : DbId) : Code := askDb d

def changes (d : DbId) : Code := askDb d

def transactionActiveP (d : DbId) : Code := askDb d

/-- `trace`. There can be too many arguments. -/
def trace (d : DbId) : Code := requireOpenDb d (either (passDb d done) raised)

def busyHandler (d : DbId) : Code := requireOpenDb d (either (passDb d (check d done)) raised)

/-- `statement_timeout=`. -/
def setStatementTimeout (d : DbId) : Code := foreign (foreign (passDb d done))

/-- A method that converts its arguments and checks the status. -/
def changeDb (d : DbId) : Code := requireOpenDb d (foreign (passDb d (check d done)))

/-- `define_function_with_flags`, and `define_function`. -/
def defineFunctionWithFlags (d : DbId) : Code := changeDb d

def defineAggregator2 (d : DbId) : Code := changeDb d

/-- `busy_timeout=`. -/
def setBusyTimeout (d : DbId) : Code := changeDb d

def enableLoadExtension (d : DbId) : Code := changeDb d

/-- `collation`. The name is a key of `@collations`. -/
def collation (d : DbId) : Code :=
  requireOpenDb d (foreign (passDb d (check d (foreign done))))

/-- `authorizer=`. -/
def setAuthorizer (d : DbId) : Code := requireOpenDb d (passDb d (check d done))

/-- `extended_result_codes=`. -/
def setExtendedResultCodes (d : DbId) : Code := requireOpenDb d (passDb d (check d done))

/-- `load_extension`. The extension may run statements. -/
def loadExtensionInternal (d : DbId) : Code :=
  foreign (requireOpenDb d (foreign (passDb d (foreign (checkMsg done)))))

/-- `exec_batch`. The statements make callbacks. -/
def execBatch (d : DbId) : Code :=
  requireOpenDb d (foreign (passDb d (foreign (checkMsg done))))

/-- `filename`. -/
def dbFilename (d : DbId) : Code := requireOpenDb d (foreign (passDb d done))

/-- `complete?`, which needs no connection. -/
def completeP : Code := foreign done

/-! ## `Statement` -/

/-- A call of SQLite with `ctx->st`. -/
def passSt (s : StmtId) (next : Code) : Code := pass [field (.st s)] next

/-- The guards of most methods. -/
def requireStatement (s : StmtId) (next : Code) : Code :=
  requireLiveDb s (requireOpenStmt s next)

/-- A method that asks SQLite for one thing. -/
def askStmt (s : StmtId) : Code := requireStatement s (passSt s done)

/-- A method that asks for something of a column. -/
def askColumn (s : StmtId) : Code := requireStatement s (foreign (passSt s done))

/-- `Statement.new`: `initialize`, and `prepare`. The authorizer runs inside
`sqlite3_prepare_v2`. -/
def prepare (s : StmtId) (d : DbId) : Code :=
  requireSet (.db d) (foreign (either
    (foreign (update (.setDb s d) (passDb d (foreign (either
      (either (assign (.st s) done) done)
      (passDb d (passDb d raised)))))))
    raised))

/-- `close`. Aggregates that are not finished are finalized by `sqlite3_finalize`, which does not
come back if `xFinal` raises. -/
def closeStmt (s : StmtId) : Code :=
  requireOpenStmt s (destroy (.st s) (inDestructor (.st s) (clear (.st s) done)))

/-- `step`. The statement is kept in the variable `stmt`. -/
def step (s : StmtId) : Code :=
  requireStatement s (test (·.doneP s) done
    (pass [captured (.st s)] (foreign (pass [captured (.st s)] (either
      -- SQLITE_ROW
      (passAll [captured (.st s)] (either done raised))
      (either
        -- SQLITE_DONE
        (update (.setDoneP s true) done)
        (pass [captured (.st s)] (foreign
          (update (.setDoneP s false) (checkStmt s done))))))))))

/-- The key of `bind_param`. -/
inductive Key
  | symbol
  | string
  | other

/-- `bind_param`. A symbol is asked for `to_s`, another key for `to_int`. -/
def bindParam (s : StmtId) (key : Key) : Code :=
  requireStatement s
    (let bind : Code := either (passSt s (checkStmt s done)) raised
    match key with
    | .symbol => foreign (passSt s bind)
    | .string => passSt s bind
    | .other => foreign bind)

/-- `reset!`, which finalizes aggregates too. -/
def resetBang (s : StmtId) : Code :=
  requireStatement s (passSt s (foreign (update (.setDoneP s false) done)))

def clearBindingsBang (s : StmtId) : Code :=
  requireStatement s (passSt s (update (.setDoneP s false) done))

def columnCount (s : StmtId) : Code := askStmt s

def bindParameterCount (s : StmtId) : Code := askStmt s

def getSql (s : StmtId) : Code := askStmt s

def getExpandedSql (s : StmtId) : Code := askStmt s

def memused (s : StmtId) : Code := askStmt s

def columnName (s : StmtId) : Code := askColumn s

def columnDecltype (s : StmtId) : Code := askColumn s

def databaseName (s : StmtId) : Code := askColumn s

def namedParams (s : StmtId) : Code :=
  requireStatement s (passSt s (passAll [field (.st s)] done))

def statsAsHash (s : StmtId) : Code := requireStatement s (passAll [field (.st s)] done)

/-- `stat_for`. The key can be unknown, or no symbol. -/
def statFor (s : StmtId) : Code := requireStatement s (either (passSt s done) raised)

/-! ## `Backup` -/

/-- A call of SQLite with `ctx->p`. -/
def passBackup (b : BackupId) (next : Code) : Code := pass [field (.p b)] next

/-- `Backup.new`. The names of the databases are converted in the call. -/
def backupInitialize (b : BackupId) (dst src : DbId) : Code :=
  requireSet (.db src) (requireSet (.db dst) (foreign
    (pass [field (.db dst), field (.db src)] (either
      (assign (.p b) done)
      (passDb dst (check dst done))))))

/-- `step`. The busy handler runs inside `sqlite3_backup_step`. -/
def backupStep (b : BackupId) : Code :=
  requireOpenBackup b (foreign (passBackup b (foreign done)))

def finish (b : BackupId) : Code := requireOpenBackup b (destroy (.p b) (clear (.p b) done))

def remaining (b : BackupId) : Code := requireOpenBackup b (passBackup b done)

def pagecount (b : BackupId) : Code := requireOpenBackup b (passBackup b done)

/-! ## All methods -/

inductive Method
  | openDb (d : DbId)
  | disableQuirkMode (d : DbId)
  | closeDb (d : DbId)
  | dbClosedP (d : DbId)
  | totalChanges (d : DbId)
  | trace (d : DbId)
  | lastInsertRowId (d : DbId)
  | defineFunctionWithFlags (d : DbId)
  | defineAggregator2 (d : DbId)
  | interrupt (d : DbId)
  | errmsg (d : DbId)
  | errcode (d : DbId)
  | completeP (d : DbId)
  | changes (d : DbId)
  | setAuthorizer (d : DbId)
  | busyHandler (d : DbId)
  | setBusyTimeout (d : DbId)
  | setStatementTimeout (d : DbId)
  | setExtendedResultCodes (d : DbId)
  | transactionActiveP (d : DbId)
  | execBatch (d : DbId)
  | dbFilename (d : DbId)
  | collation (d : DbId)
  | loadExtensionInternal (d : DbId)
  | enableLoadExtension (d : DbId)
  | prepare (s : StmtId) (d : DbId)
  | closeStmt (s : StmtId)
  | stmtClosedP (s : StmtId)
  | bindParam (s : StmtId) (key : Key)
  | resetBang (s : StmtId)
  | clearBindingsBang (s : StmtId)
  | step (s : StmtId)
  | doneP (s : StmtId)
  | columnCount (s : StmtId)
  | columnName (s : StmtId)
  | columnDecltype (s : StmtId)
  | bindParameterCount (s : StmtId)
  | namedParams (s : StmtId)
  | getSql (s : StmtId)
  | getExpandedSql (s : StmtId)
  | databaseName (s : StmtId)
  | memused (s : StmtId)
  | statsAsHash (s : StmtId)
  | statFor (s : StmtId)
  | backupInitialize (b : BackupId) (dst src : DbId)
  | backupStep (b : BackupId)
  | finish (b : BackupId)
  | remaining (b : BackupId)
  | pagecount (b : BackupId)

namespace Method

def code : Method → Code
  | openDb d => Guards.openDb d
  | disableQuirkMode d => Guards.disableQuirkMode d
  | closeDb d => Guards.closeDb d
  | dbClosedP _ => done
  | totalChanges d => Guards.totalChanges d
  | trace d => Guards.trace d
  | lastInsertRowId d => Guards.lastInsertRowId d
  | defineFunctionWithFlags d => Guards.defineFunctionWithFlags d
  | defineAggregator2 d => Guards.defineAggregator2 d
  | interrupt d => Guards.interrupt d
  | errmsg d => Guards.errmsg d
  | errcode d => Guards.errcode d
  | completeP _ => Guards.completeP
  | changes d => Guards.changes d
  | setAuthorizer d => Guards.setAuthorizer d
  | busyHandler d => Guards.busyHandler d
  | setBusyTimeout d => Guards.setBusyTimeout d
  | setStatementTimeout d => Guards.setStatementTimeout d
  | setExtendedResultCodes d => Guards.setExtendedResultCodes d
  | transactionActiveP d => Guards.transactionActiveP d
  | execBatch d => Guards.execBatch d
  | dbFilename d => Guards.dbFilename d
  | collation d => Guards.collation d
  | loadExtensionInternal d => Guards.loadExtensionInternal d
  | enableLoadExtension d => Guards.enableLoadExtension d
  | prepare s d => Guards.prepare s d
  | closeStmt s => Guards.closeStmt s
  | stmtClosedP _ => done
  | bindParam s key => Guards.bindParam s key
  | resetBang s => Guards.resetBang s
  | clearBindingsBang s => Guards.clearBindingsBang s
  | step s => Guards.step s
  | doneP _ => done
  | columnCount s => Guards.columnCount s
  | columnName s => Guards.columnName s
  | columnDecltype s => Guards.columnDecltype s
  | bindParameterCount s => Guards.bindParameterCount s
  | namedParams s => Guards.namedParams s
  | getSql s => Guards.getSql s
  | getExpandedSql s => Guards.getExpandedSql s
  | databaseName s => Guards.databaseName s
  | memused s => Guards.memused s
  | statsAsHash s => Guards.statsAsHash s
  | statFor s => Guards.statFor s
  | backupInitialize b dst src => Guards.backupInitialize b dst src
  | backupStep b => Guards.backupStep b
  | finish b => Guards.finish b
  | remaining b => Guards.remaining b
  | pagecount b => Guards.pagecount b

/-- The handle that a method passes without a look at it. -/
def assumes : Method → List Handle
  | setStatementTimeout d => [.db d]
  | _ => []

end Method

/-! ## Every method but one looks first -/

section Guarded

variable {d : DbId} {s : StmtId} {b : BackupId} {next : Code} {checked : List Handle}

@[simp] theorem guarded_requireOpenDb :
    (requireOpenDb d next).Guarded checked ↔ next.Guarded (.db d :: checked) := Iff.rfl

@[simp] theorem guarded_requireClosedDb :
    (requireClosedDb d next).Guarded checked ↔ next.Guarded checked := Iff.rfl

@[simp] theorem guarded_requireOpenStmt :
    (requireOpenStmt s next).Guarded checked ↔ next.Guarded (.st s :: checked) := Iff.rfl

@[simp] theorem guarded_requireStatement :
    (requireStatement s next).Guarded checked ↔ next.Guarded (.st s :: checked) := by
  simp [requireStatement, requireLiveDb]

@[simp] theorem guarded_requireOpenBackup :
    (requireOpenBackup b next).Guarded checked ↔ next.Guarded (.p b :: checked) := Iff.rfl

@[simp] theorem guarded_passDb :
    (passDb d next).Guarded checked ↔ .db d ∈ checked ∧ next.Guarded checked := by
  simp [passDb]

@[simp] theorem guarded_passSt :
    (passSt s next).Guarded checked ↔ .st s ∈ checked ∧ next.Guarded checked := by
  simp [passSt]

@[simp] theorem guarded_passBackup :
    (passBackup b next).Guarded checked ↔ .p b ∈ checked ∧ next.Guarded checked := by
  simp [passBackup]

@[simp] theorem guarded_check :
    (check d next).Guarded checked ↔ next.Guarded checked ∧ .db d ∈ checked := by
  simp [check]

@[simp] theorem guarded_checkStmt :
    (checkStmt s next).Guarded checked ↔ .st s ∈ checked ∧ next.Guarded checked := by
  simp [checkStmt]

@[simp] theorem guarded_checkMsg :
    (checkMsg next).Guarded checked ↔ next.Guarded checked := by
  simp [checkMsg]

theorem guarded_askDb : (askDb d).Guarded checked := by
  simp [askDb]

theorem guarded_changeDb : (changeDb d).Guarded checked := by
  simp [changeDb]

@[simp] theorem guarded_discardDb :
    (discardDb d next).Guarded checked ↔ .db d ∈ checked ∧ next.Guarded checked := by
  simp [discardDb]

theorem guarded_closeDb : (closeDb d).Guarded checked := by
  simp [closeDb, closeOrDiscardDb]

theorem guarded_openDb : (openDb d).Guarded checked := by
  simp [openDb]

theorem guarded_askStmt : (askStmt s).Guarded checked := by
  simp [askStmt]

theorem guarded_askColumn : (askColumn s).Guarded checked := by
  simp [askColumn]

theorem guarded_prepare : (prepare s d).Guarded checked := by
  simp [prepare]

theorem guarded_step : (step s).Guarded checked := by
  simp [step]

theorem guarded_bindParam (key : Key) : (bindParam s key).Guarded checked := by
  cases key <;> simp [bindParam]

theorem guarded_backupInitialize {dst src : DbId} :
    (backupInitialize b dst src).Guarded checked := by
  simp [backupInitialize]

end Guarded

theorem method_guarded (m : Method) : m.code.Guarded m.assumes := by
  cases m with
  | openDb d => exact guarded_openDb
  | closeDb d => exact guarded_closeDb
  | prepare s d => exact guarded_prepare
  | step s => exact guarded_step
  | bindParam s key => exact guarded_bindParam key
  | backupInitialize b dst src => exact guarded_backupInitialize
  | totalChanges d => exact guarded_askDb
  | lastInsertRowId d => exact guarded_askDb
  | interrupt d => exact guarded_askDb
  | errmsg d => exact guarded_askDb
  | errcode d => exact guarded_askDb
  | changes d => exact guarded_askDb
  | transactionActiveP d => exact guarded_askDb
  | defineFunctionWithFlags d => exact guarded_changeDb
  | defineAggregator2 d => exact guarded_changeDb
  | setBusyTimeout d => exact guarded_changeDb
  | enableLoadExtension d => exact guarded_changeDb
  | columnCount s => exact guarded_askStmt
  | bindParameterCount s => exact guarded_askStmt
  | getSql s => exact guarded_askStmt
  | getExpandedSql s => exact guarded_askStmt
  | memused s => exact guarded_askStmt
  | columnName s => exact guarded_askColumn
  | columnDecltype s => exact guarded_askColumn
  | databaseName s => exact guarded_askColumn
  | dbClosedP d => exact trivial
  | stmtClosedP s => exact trivial
  | doneP s => exact trivial
  | completeP d => exact trivial
  | disableQuirkMode d => simp [Method.code, disableQuirkMode]
  | trace d => simp [Method.code, trace]
  | busyHandler d => simp [Method.code, busyHandler]
  | setStatementTimeout d =>
      simp [Method.code, Method.assumes, setStatementTimeout]
  | setAuthorizer d => simp [Method.code, setAuthorizer]
  | setExtendedResultCodes d => simp [Method.code, setExtendedResultCodes]
  | execBatch d => simp [Method.code, execBatch]
  | dbFilename d => simp [Method.code, dbFilename]
  | collation d => simp [Method.code, collation]
  | loadExtensionInternal d => simp [Method.code, loadExtensionInternal]
  | closeStmt s => simp [Method.code, closeStmt]
  | resetBang s => simp [Method.code, resetBang]
  | clearBindingsBang s => simp [Method.code, clearBindingsBang]
  | namedParams s => simp [Method.code, namedParams]
  | statsAsHash s => simp [Method.code, statsAsHash]
  | statFor s => simp [Method.code, statFor]
  | backupStep b => simp [Method.code, backupStep]
  | finish b => simp [Method.code, finish]
  | remaining b => simp [Method.code, remaining]
  | pagecount b => simp [Method.code, pagecount]

/-! ## Runs -/

abbrev World := Handles.World Handle Fields

/-- Nothing has been opened. -/
def start : World where
  field _ := false
  live _ := false
  destroying _ := false
  state := ⟨fun _ => none, fun _ => false, fun _ => false⟩
  frames := []

theorem inv_start : Handles.Inv start where
  field _ h := by cases h
  destroying _ h := by cases h
  lost _ h := by cases h
  sound _ h := by cases h

/-- Over any run of calls, also of calls in calls: SQLite is passed live handles only and no
null context is followed exactly when every step meets the condition. -/
theorem handles_live_iff (es : List (Handles.Event Method)) :
    StepSystem.AlwaysStep (Handles.step Method.assumes Method.code) Handles.Right start es ↔
      StepSystem.AlwaysStep (Handles.step Method.assumes Method.code) Handles.Meets start es :=
  Handles.right_iff_meets_run method_guarded inv_start es

/-- `SQLite3::Database.allocate.statement_timeout = 1000`. -/
def timeoutOfAllocated : List (Handles.Event Method) :=
  [.enter (.setStatementTimeout 0), .proceed true, .proceed true]

/-- The progress handler is set on a null connection. -/
theorem timeoutOfAllocated_passes_null :
    ¬ StepSystem.AlwaysStep (Handles.step Method.assumes Method.code) Handles.Right start
      (timeoutOfAllocated ++ [.proceed true]) := by
  intro h
  have hexec : StepSystem.exec (Handles.step Method.assumes Method.code) start
      timeoutOfAllocated =
        some { start with frames := [⟨[.db 0], passDb 0 done, fun _ => false⟩] } := rfl
  obtain ⟨hlive, -⟩ := h.last hexec rfl _ rfl
  have hpassed : field (.db 0) ∈ (passDb 0 done).passed true := List.mem_singleton_self _
  exact Bool.false_ne_true (hlive _ hpassed).1

end Sqlite3Ruby.Guards
