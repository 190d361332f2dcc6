import Sqlite3Ruby.Batch
import Sqlite3Ruby.Unwinding.Statement

/-!
# Queries whose calls are unwound

The methods that run a query, over statements whose calls into SQLite a callback may unwind.

## Implementation notes

What only reads a statement, and what binds its parameters, comes back at all times. Where every
call comes back the methods are those of `Query`.
-/

namespace Sqlite3Ruby.Query.Unwinding

variable {C : Type} {α β : Type} (u : Unwinding C)

/-! ## `Statement` -/

/-- `Statement#close`. A `sqlite3_finalize` that is unwound leaves the statement open. -/
def close (stmt : Prepared) : QueryM C Unit := do
  onStatement stmt (Statement.Unwinding.sqlite3VdbeReset u)
  CallM.modify (·.finalize stmt.id)

/-- `Statement#step`. -/
def step (stmt : Prepared) : QueryM C (Option (List Value)) :=
  onStatement stmt (Statement.Unwinding.step u)

/-- `Statement#execute`. -/
def statementExecute (host : Host) (stmt : Prepared) (vars : List BindVar) :
    QueryM C ResultSet := do
  onStatement stmt (Statement.Unwinding.execute u host vars)
  buildResultSet stmt

/-- The row that `Statement#each` is at. -/
def nextValues (stmt : Prepared) : QueryM C (Option (List Value)) := do
  let val ← step u stmt
  if ← done stmt then pure none else pure val

/-- `Statement#each`. -/
def statementEach (stmt : Prepared) (block : β → List Value → QueryM C β) (b : β) : QueryM C β :=
  CallM.loopSome (nextValues u stmt) block b

/-! ## `ResultSet` -/

/-- `next_hash`. -/
def nextHash (stmt : Prepared) : QueryM C (Option Row) := do
  let row ← step u stmt
  if ← done stmt then pure none
  else do
    let columns ← columns stmt
    match row with
    | some row => pure (some (.hash (zipToH columns row)))
    | none =>
        CallM.lift (.raise ⟨.TypeError, "wrong argument type nil (must respond to :each)"⟩)

/-- `next`. -/
def next (rs : ResultSet) : QueryM C (Option Row) :=
  if rs.isHash then nextHash u rs.stmt
  else do
    let row ← step u rs.stmt
    pure (row.map .array)

/-- `ResultSet#each`. -/
def each (rs : ResultSet) (block : β → Row → QueryM C β) (b : β) : QueryM C β :=
  CallM.whileSome (next u rs) block b

/-- `ResultSet#to_a`. -/
def toA (rs : ResultSet) : QueryM C (List Row) := each u rs pushRow []

/-! ## `Database` -/

section Database

variable (host : Host) (compile : List UInt8 → C → Compiled C)

/-- `Database#prepare` without a block. A `sqlite3_prepare_v2` that is unwound may leave the
statement behind that it was about to compile. -/
def prepare (sql : RString) : QueryM C Prepared := do
  let db ← CallM.get
  if db.isOpen then do
    let text ← CallM.lift (strEncodeUtf8 host sql)
    match u.prepare (sqlRead text) db.content with
    | some (e, content, begun) => do
        CallM.modify fun db => { db with content }.push (begun.map fun program => { program })
        CallM.lift (.raise e)
    | none => Query.prepare host compile sql
  else CallM.lift (.raise ⟨.ArgumentError, "prepare called on a closed database"⟩)

/-- `stmt.close unless stmt.closed?`. -/
def closeUnlessClosed (stmt : Prepared) : QueryM C Unit := do
  let db ← CallM.get
  if (db.statement stmt.id).isNone then pure () else close u stmt

/-- `prepare` with a block. -/
def prepareBlock (sql : RString) (block : Prepared → QueryM C α) : QueryM C α := do
  let stmt ← prepare u host compile sql
  CallM.ensure (block stmt) (closeUnlessClosed u stmt)

/-- `execute` with a block. -/
def executeBlock (sql : RString) (vars : BindVar) (block : β → Row → QueryM C β) (b : β) :
    QueryM C β :=
  prepareBlock u host compile sql fun stmt => do
    bindParams host stmt [vars]
    let rs ← buildResultSet stmt
    each u rs block b

/-- `execute` without a block. -/
def execute (sql : RString) (vars : BindVar) : QueryM C (List Row) :=
  prepareBlock u host compile sql fun stmt => do
    bindParams host stmt [vars]
    let rs ← buildResultSet stmt
    toA u rs

/-- `execute2` with a block. -/
def execute2Block (sql : RString) (vars : List BindVar) (block : β → Row → QueryM C β) (b : β) :
    QueryM C β :=
  prepareBlock u host compile sql fun stmt => do
    let result ← statementExecute u host stmt vars
    let b ← block b (.header (← columns stmt))
    each u result block b

/-- `execute2` without a block. -/
def execute2 (sql : RString) (vars : List BindVar) : QueryM C (List Row) :=
  prepareBlock u host compile sql fun stmt => do
    let result ← statementExecute u host stmt vars
    let header ← columns stmt
    each u result pushRow [.header header]

/-- What `execute_batch` does with a statement `unless stmt.closed?`. -/
def batchStep (vars : BindVar) (length : Outcome Nat) (stmt : Prepared)
    (result : Option (List Value)) : QueryM C (Option (List Value)) := do
  let db ← CallM.get
  if (db.statement stmt.id).isNone then pure result
  else do
    let length ← CallM.lift length
    let count ← bindParameterCount stmt
    if length = count then bindParams host stmt [vars] else pure ()
    step u stmt

/-- The body of the loop of `execute_batch`. -/
def batchBody (vars : BindVar) (length : Outcome Nat) (b : BatchState) : QueryM C BatchState :=
  prepareBlock u host compile b.sql fun stmt => do
    let result ← batchStep u host vars length stmt b.result
    let sql ← CallM.lift ((utf8String stmt.remainder).strip host)
    pure ⟨sql, result⟩

/-- `execute_batch`. -/
def executeBatch (sql : RString) (vars : BindVar) (length : Outcome Nat) :
    QueryM C (Option (List Value)) := do
  let sql ← CallM.lift (sql.strip host)
  let b ← CallM.loopUntil BatchState.isFinished (batchBody u host compile vars length) ⟨sql, none⟩
  pure b.result

/-- `query` without a block. -/
def query (sql : RString) (vars : BindVar) : QueryM C ResultSet := do
  let stmt ← prepare u host compile sql
  statementExecute u host stmt [vars]

/-- `query` with a block. -/
def queryBlock (sql : RString) (vars : BindVar) (block : ResultSet → QueryM C α) : QueryM C α := do
  let result ← query u host compile sql vars
  CallM.ensure (block result) (close u result.stmt)

/-- `get_first_row`. -/
def getFirstRow (sql : RString) (vars : List BindVar) : QueryM C (Option Row) :=
  match vars with
  | [] => do
      let rows ← execute u host compile sql (.array [])
      pure rows.head?
  | [var] => do
      let rows ← execute u host compile sql var
      pure rows.head?
  | _ =>
      CallM.lift (.raise ⟨.ArgumentError, "wrong number of arguments (given " ++
        toString (vars.length + 1) ++ ", expected 1..2)"⟩)

/-- `get_first_value`. -/
def getFirstValue (sql : RString) (vars : List BindVar) : QueryM C Value :=
  queryBlock u host compile sql (.array vars) fun rs => do
    match ← next u rs with
    | none => pure .nil
    | some row => do
        let columns ← columns rs.stmt
        pure (firstValue row columns)

/-! ## `Pragmas` -/

/-- The readers of one value. -/
def pragmaReader (name : List UInt8) (convert : Value → Outcome α) : QueryM C α := do
  let value ← getFirstValue u host compile (pragmaText name) []
  CallM.lift (convert value)

/-- `get_boolean_pragma`. -/
def getBooleanPragma (name : List UInt8) : QueryM C Bool :=
  pragmaReader u host compile name fun value => .ok (value ≠ .integer 0)

/-- `get_enum_pragma`. -/
def getEnumPragma (name : List UInt8) : QueryM C Value := pragmaReader u host compile name .ok

/-- `get_int_pragma`. -/
def getIntPragma (toI : Value → Outcome Int) (name : List UInt8) : QueryM C Int :=
  pragmaReader u host compile name toI

/-- `get_query_pragma` with a block. -/
def getQueryPragmaBlock (name : List UInt8) (params : List (List UInt8))
    (block : β → Row → QueryM C β) (b : β) : QueryM C β :=
  executeBlock u host compile (queryPragmaText name params) (.array []) block b

/-- `get_query_pragma` without a block. -/
def getQueryPragma (name : List UInt8) (params : List (List UInt8)) : QueryM C (List Row) :=
  execute u host compile (queryPragmaText name params) (.array [])

/-- `table_info` with a block. -/
def tableInfoBlock (tweak : List (String × Value) → Outcome (List (String × Value)))
    (table : List UInt8) (block : β → List (String × Value) → QueryM C β) (b : β) :
    QueryM C β := do
  let stmt ← prepare u host compile (tableInfoText table)
  let columns ← columns stmt
  let b ← statementEach u stmt (tableInfoRow tweak block columns) b
  close u stmt
  pure b

/-- `table_info` without a block. -/
def tableInfo (tweak : List (String × Value) → Outcome (List (String × Value)))
    (table : List UInt8) : QueryM C (List (List (String × Value))) :=
  tableInfoBlock u host compile tweak table pushRow []

end Database

/-! ## Where nothing is unwound -/

section Calm

variable (host : Host) (compile : List UInt8 → C → Compiled C)

theorem close_calm : close (Unwinding.calm : Unwinding C) = Query.close := by
  funext stmt rounds db
  rw [close, Query.close, CallM.get_bind]
  cases h : db.statement stmt.id with
  | none => exact CallM.bind_run_raise _ (onStatement_closed h _ rounds)
  | some s =>
      have hreset := onStatement_run h (Statement.Unwinding.sqlite3VdbeReset Unwinding.calm) rounds
      rw [Statement.Unwinding.sqlite3VdbeReset_quiet _ (Statement.Unwinding.resetsQuietly_calm _),
        Database.put_machine h] at hreset
      rw [CallM.bind_run_ok _ _ hreset]
      rfl

theorem step_calm : step (Unwinding.calm : Unwinding C) = Query.step := by
  funext stmt
  rw [step, Query.step, Statement.Unwinding.step_calm]

theorem statementExecute_calm :
    statementExecute (Unwinding.calm : Unwinding C) = Query.statementExecute := by
  funext host stmt vars
  rw [statementExecute, Query.statementExecute, Statement.Unwinding.execute_calm]

theorem nextValues_calm : nextValues (Unwinding.calm : Unwinding C) = Query.nextValues := by
  funext stmt
  rw [nextValues, Query.nextValues, step_calm]

theorem next_calm : next (Unwinding.calm : Unwinding C) = ResultSet.next := by
  funext rs
  rw [next, nextHash, step_calm]
  rfl

theorem each_calm : each (β := β) (Unwinding.calm : Unwinding C) = ResultSet.each := by
  funext rs block b
  rw [each, ResultSet.each, next_calm]

theorem toA_calm : toA (Unwinding.calm : Unwinding C) = ResultSet.toA := by
  funext rs
  rw [toA, ResultSet.toA, each_calm]

theorem statementEach_calm :
    statementEach (β := β) (Unwinding.calm : Unwinding C) = Query.statementEach := by
  funext stmt block b
  rw [statementEach, Query.statementEach, nextValues_calm]

theorem closeUnlessClosed_calm :
    closeUnlessClosed (Unwinding.calm : Unwinding C) = Query.closeUnlessClosed := by
  funext stmt
  rw [closeUnlessClosed, Query.closeUnlessClosed, close_calm]

theorem prepare_calm : prepare Unwinding.calm host compile = Query.prepare host compile := by
  funext sql rounds db
  rw [prepare, CallM.get_bind]
  cases hopen : db.isOpen with
  | false => rw [Query.prepare, CallM.get_bind, hopen]; rfl
  | true =>
      rw [if_pos rfl]
      cases htext : strEncodeUtf8 host sql with
      | ok text => rfl
      | raise e => rw [Query.prepare, CallM.get_bind, hopen, if_pos rfl, htext]; rfl
      | jump tag => rw [Query.prepare, CallM.get_bind, hopen, if_pos rfl, htext]; rfl

theorem prepareBlock_calm :
    prepareBlock (α := α) Unwinding.calm host compile = Query.prepareBlock host compile := by
  funext sql block
  rw [prepareBlock, Query.prepareBlock, prepare_calm, closeUnlessClosed_calm]

theorem executeBlock_calm :
    executeBlock (β := β) Unwinding.calm host compile = Query.executeBlock host compile := by
  funext sql vars block b
  rw [executeBlock, Query.executeBlock, prepareBlock_calm, each_calm]

theorem execute_calm : execute Unwinding.calm host compile = Query.execute host compile := by
  funext sql vars
  rw [execute, Query.execute, prepareBlock_calm, toA_calm]

theorem execute2Block_calm :
    execute2Block (β := β) Unwinding.calm host compile = Query.execute2Block host compile := by
  funext sql vars block b
  rw [execute2Block, Query.execute2Block, prepareBlock_calm, statementExecute_calm, each_calm]

theorem execute2_calm : execute2 Unwinding.calm host compile = Query.execute2 host compile := by
  funext sql vars
  rw [execute2, Query.execute2, prepareBlock_calm, statementExecute_calm, each_calm]

theorem batchStep_calm : batchStep (Unwinding.calm : Unwinding C) = Query.batchStep := by
  funext host vars length stmt result
  rw [batchStep, Query.batchStep, step_calm]

theorem batchBody_calm : batchBody Unwinding.calm host compile = Query.batchBody host compile := by
  funext vars length b
  rw [batchBody, Query.batchBody, prepareBlock_calm, batchStep_calm]

theorem executeBatch_calm :
    executeBatch Unwinding.calm host compile = Query.executeBatch host compile := by
  funext sql vars length
  rw [executeBatch, Query.executeBatch, batchBody_calm]

theorem queryBlock_calm :
    queryBlock (α := α) Unwinding.calm host compile = Query.queryBlock host compile := by
  funext sql vars block
  rw [queryBlock, Query.queryBlock, query, Query.query, prepare_calm, statementExecute_calm,
    close_calm]

theorem getFirstRow_calm :
    getFirstRow Unwinding.calm host compile = Query.getFirstRow host compile := by
  funext sql vars
  cases vars with
  | nil => rw [getFirstRow, Query.getFirstRow, execute_calm]
  | cons var vars =>
      cases vars with
      | nil => rw [getFirstRow, Query.getFirstRow, execute_calm]
      | cons var' vars => rfl

theorem getFirstValue_calm :
    getFirstValue Unwinding.calm host compile = Query.getFirstValue host compile := by
  funext sql vars
  rw [getFirstValue, queryBlock_calm, next_calm]
  rfl

theorem pragmaReader_calm :
    pragmaReader (α := α) Unwinding.calm host compile = Query.pragmaReader host compile := by
  funext name convert
  rw [pragmaReader, Query.pragmaReader, getFirstValue_calm]

theorem tableInfoBlock_calm :
    tableInfoBlock (β := β) Unwinding.calm host compile = Query.tableInfoBlock host compile := by
  funext tweak table block b
  rw [tableInfoBlock, Query.tableInfoBlock, prepare_calm, statementEach_calm, close_calm]

end Calm

end Sqlite3Ruby.Query.Unwinding
