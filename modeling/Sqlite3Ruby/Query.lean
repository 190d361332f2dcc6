import Sqlite3Ruby.Ruby.Call
import Sqlite3Ruby.Statement

/-!
# The methods that run a query

`Database` and `Statement` run a text in several ways: through a result set or
through the statement itself, for an array of rows or for a block.

## Implementation notes

A statement is a place in the list of the statements that were compiled; it is
empty once the statement is finalized. `return` out of the block of `execute2` and of
`get_first_value` is the value of that block, which is what follows it.
-/

namespace Sqlite3Ruby.Query

/-- What `sqlite3_prepare_v2` makes of a text, with the text that follows. -/
inductive Compiled (C : Type)
  | statement (program : Program C) (tail : List UInt8)
  | noStatement (tail : List UInt8)
  | error (status : ErrorStatus) (errmsg : String)

/-- A `Database`, with the content and the statements that SQLite has for it. -/
structure Database (C : Type) where
  isOpen : Bool
  resultsAsHash : Bool
  content : C
  statements : List (Option (Statement C))
  events : List VmEvent

namespace Database

variable {C : Type}

/-- The open statement of this number. -/
def statement (db : Database C) (id : Nat) : Option (Statement C) := db.statements[id]?.join

def push (db : Database C) (statement : Option (Statement C)) : Database C :=
  { db with statements := db.statements ++ [statement] }

/-- What a statement has done to its machine. -/
def put (db : Database C) (id : Nat) (m : Machine C) : Database C :=
  { db with
    content := m.content
    statements := db.statements.set id (some m.statement)
    events := m.events }

def finalize (db : Database C) (id : Nat) : Database C :=
  { db with statements := db.statements.set id none }

/-- The machine of a statement of the database. -/
def machine (db : Database C) (s : Statement C) : Machine C := ⟨db.content, s, db.events⟩

theorem lt_length_of_statement {db : Database C} {id : Nat} {s : Statement C}
    (h : db.statement id = some s) : id < db.statements.length := by
  rw [statement, Option.join_eq_some_iff] at h
  exact (List.getElem?_eq_some_iff.mp h).1

theorem statement_put {db : Database C} {id : Nat} {s : Statement C}
    (h : db.statement id = some s) (m : Machine C) :
    (db.put id m).statement id = some m.statement := by
  simp [statement, put, List.getElem?_set_self (lt_length_of_statement h)]

theorem statement_put_of_ne (db : Database C) {id id' : Nat} (h : id' ≠ id) (m : Machine C) :
    (db.put id m).statement id' = db.statement id' := by
  simp [statement, put, List.getElem?_set_ne h.symm]

@[simp] theorem statement_push (db : Database C) (statement : Option (Statement C)) :
    (db.push statement).statement db.statements.length = statement := by
  simp [push, Database.statement]

theorem statement_push_of_ne (db : Database C) (statement : Option (Statement C)) {id : Nat}
    (h : id ≠ db.statements.length) : (db.push statement).statement id = db.statement id := by
  rw [Database.statement, Database.statement, push]
  rcases Nat.lt_or_gt_of_ne h with hlt | hgt
  · rw [List.getElem?_append_left hlt]
  · rw [List.getElem?_eq_none (by simp; omega), List.getElem?_eq_none (by omega)]

@[simp] theorem statement_finalize (db : Database C) (id : Nat) :
    (db.finalize id).statement id = none := by
  rw [statement, finalize, List.getElem?_set, if_pos rfl]
  split <;> rfl

theorem statement_finalize_of_ne (db : Database C) {id id' : Nat} (h : id' ≠ id) :
    (db.finalize id).statement id' = db.statement id' := by
  simp [statement, finalize, List.getElem?_set_ne h.symm]

/-- A machine that is put back as it was. -/
theorem put_machine {db : Database C} {id : Nat} {s : Statement C}
    (h : db.statement id = some s) : db.put id (db.machine s) = db := by
  rw [statement, Option.join_eq_some_iff] at h
  obtain ⟨hlt, hget⟩ := List.getElem?_eq_some_iff.mp h
  rw [put, machine, ← hget, List.set_getElem_self]

end Database

abbrev QueryM (C : Type) := CallM (Database C)

/-- A `Statement`: the number of its native statement, and `remainder`. -/
structure Prepared where
  id : Nat
  remainder : List UInt8

/-- A `ResultSet`, or a `HashResultSet`. -/
structure ResultSet where
  stmt : Prepared
  isHash : Bool

/-- A row as it is handed out. `execute2` begins with the names of the columns. -/
inductive Row
  | header (columns : List String)
  | array (values : List Value)
  | hash (entries : List (String × Value))

/-- `Enumerable#to_a`, as the block of `each`. -/
def pushRow {C α : Type} (rows : List α) (row : α) : QueryM C (List α) := pure (rows ++ [row])

variable {C : Type} {α β : Type}

/-! ## `Statement` -/

def closedStatement : RubyException := ⟨.SQLite3Exception, "cannot use a closed statement"⟩

/-- A method of an open statement. -/
def onStatement (stmt : Prepared) (method : StatementM C α) : QueryM C α := fun _ db =>
  match db.statement stmt.id with
  | none => some (.raise closedStatement, db)
  | some s =>
      let result := method (db.machine s)
      some (result.1, db.put stmt.id result.2)

theorem onStatement_run {stmt : Prepared} {db : Database C} {s : Statement C}
    (h : db.statement stmt.id = some s) (method : StatementM C α) (rounds : Nat) :
    onStatement stmt method rounds db =
      some ((method (db.machine s)).1, db.put stmt.id (method (db.machine s)).2) := by
  unfold onStatement
  rw [h]

theorem onStatement_closed {stmt : Prepared} {db : Database C}
    (h : db.statement stmt.id = none) (method : StatementM C α) (rounds : Nat) :
    onStatement stmt method rounds db = some (.raise closedStatement, db) := by
  unfold onStatement
  rw [h]

/-- A method that only reads the statement. -/
theorem onStatement_read {stmt : Prepared} {db : Database C} {s : Statement C}
    (h : db.statement stmt.id = some s) (read : Machine C → α) (rounds : Nat) :
    onStatement stmt (do let m ← RubyM.get; pure (read m)) rounds db =
      some (.ok (read (db.machine s)), db) := by
  rw [onStatement_run h, RubyM.get_bind, RubyM.pure_run, Database.put_machine h]

/-- `Statement#close`. -/
def close (stmt : Prepared) : QueryM C Unit := do
  let db ← CallM.get
  if (db.statement stmt.id).isSome then CallM.modify (·.finalize stmt.id)
  else CallM.lift (.raise closedStatement)

/-- `Statement#step`. -/
def step (stmt : Prepared) : QueryM C (Option (List Value)) := onStatement stmt Statement.step

/-- `Statement#done?`. -/
def done (stmt : Prepared) : QueryM C Bool :=
  onStatement stmt do
    let m ← RubyM.get
    pure m.statement.doneP

/-- `Statement#columns`. -/
def columns (stmt : Prepared) : QueryM C (List String) :=
  onStatement stmt do
    let m ← RubyM.get
    pure m.statement.program.columns

/-- `Statement#bind_parameter_count`. -/
def bindParameterCount (stmt : Prepared) : QueryM C Nat :=
  onStatement stmt do
    let m ← RubyM.get
    pure m.statement.program.parameterCount

/-- The variable is an empty hash, for which nothing is bound. -/
def bindsNothing : FlatVar → Bool
  | .hash [] => true
  | _ => false

/-- `Statement#bind_params`. A closed statement is noticed by the first `bind_param`. -/
def bindParams (host : Host) (stmt : Prepared) (vars : List BindVar) : QueryM C Unit := do
  let db ← CallM.get
  if (db.statement stmt.id).isNone && (flattenAll vars).all bindsNothing then pure ()
  else onStatement stmt (Statement.bindParams host vars)

/-- `build_result_set`. -/
def buildResultSet (stmt : Prepared) : QueryM C ResultSet := do
  let db ← CallM.get
  pure ⟨stmt, db.resultsAsHash⟩

/-- `Statement#execute`. -/
def statementExecute (host : Host) (stmt : Prepared) (vars : List BindVar) :
    QueryM C ResultSet := do
  onStatement stmt (Statement.execute host vars)
  buildResultSet stmt

/-- The row that `Statement#each` is at. `step` answers `nil` only when it is done. -/
def nextValues (stmt : Prepared) : QueryM C (Option (List Value)) := do
  let val ← step stmt
  if ← done stmt then pure none else pure val

/-- `Statement#each`. -/
def statementEach (stmt : Prepared) (block : β → List Value → QueryM C β) (b : β) : QueryM C β :=
  CallM.loopSome (nextValues stmt) block b

/-- `Statement#execute!` without a block. -/
def executeBang (host : Host) (stmt : Prepared) (vars : List BindVar) :
    QueryM C (List (List Value)) := do
  let _ ← statementExecute host stmt vars
  statementEach stmt pushRow []

/-! ## `ResultSet` -/

/-- `columns.zip(row).to_h`. -/
def zipToH (columns : List String) (row : List Value) : List (String × Value) :=
  (columns.zip (row ++ List.replicate columns.length .nil)).foldl
    (fun hash entry => hashAset hash entry.1 entry.2) []

/-- `next_hash`. -/
def nextHash (stmt : Prepared) : QueryM C (Option Row) := do
  let row ← step stmt
  if ← done stmt then pure none
  else do
    let columns ← columns stmt
    match row with
    | some row => pure (some (.hash (zipToH columns row)))
    | none =>
        CallM.lift (.raise ⟨.TypeError, "wrong argument type nil (must respond to :each)"⟩)

/-- `next`. -/
def ResultSet.next (rs : ResultSet) : QueryM C (Option Row) :=
  if rs.isHash then nextHash rs.stmt
  else do
    let row ← step rs.stmt
    pure (row.map .array)

/-- `ResultSet#each`. -/
def ResultSet.each (rs : ResultSet) (block : β → Row → QueryM C β) (b : β) : QueryM C β :=
  CallM.whileSome rs.next block b

/-- `ResultSet#to_a`. -/
def ResultSet.toA (rs : ResultSet) : QueryM C (List Row) := rs.each pushRow []

/-! ## `Database` -/

section Database

variable (host : Host) (compile : List UInt8 → C → Compiled C)

/-- The text that C sees. -/
def cString (bytes : List UInt8) : List UInt8 := bytes.takeWhile (· ≠ 0)

theorem cString_eq_self {text : List UInt8} (h : 0 ∉ text) : cString text = text := by
  rw [cString, List.takeWhile_eq_self_iff]
  intro b hb
  have hne : b ≠ 0 := by
    rintro rfl
    exact h hb
  simpa using hne

theorem zero_not_mem_cString (text : List UInt8) : 0 ∉ cString text := by
  intro h
  simpa using List.mem_takeWhile_imp h

theorem cString_encode {cs : List Char} (h : '\x00' ∉ cs) :
    cString (Utf8.encode cs) = Utf8.encode cs := cString_eq_self (Utf8.zero_not_mem_encode h)

/-- What `sqlite3_prepare_v2` reads of a text: as much as the length in its `int` says, up to
a NUL. -/
def sqlRead (text : List UInt8) : List UInt8 := cString (textBytes text (cInt text.length))

/-- What follows that in the text. The tail that SQLite answers points into the whole text. -/
def sqlUnread (text : List UInt8) : List UInt8 := (cString text).drop (sqlRead text).length

theorem cString_cString (text : List UInt8) : cString (cString text) = cString text :=
  cString_eq_self (zero_not_mem_cString text)

theorem sqlRead_eq {text : List UInt8} (h : text.length < 2 ^ 32) : sqlRead text = cString text := by
  rw [sqlRead]
  by_cases hshort : text.length < 2 ^ 31
  · rw [textBytes_cInt hshort]
  · have hneg : cInt text.length < 0 := by
      rcases cInt_cases text.length with ⟨hlow, -⟩ | ⟨-, heq⟩
      · rw [Nat.mod_eq_of_lt h] at hlow
        exact absurd hlow hshort
      · rw [heq]
        omega
    rw [textBytes, if_pos hneg]
    exact cString_cString text

theorem sqlUnread_eq {text : List UInt8} (h : text.length < 2 ^ 32) : sqlUnread text = [] := by
  rw [sqlUnread, sqlRead_eq h, List.drop_length]

/-- `Database#prepare` without a block, which is `Statement.new`. -/
def prepare (sql : RString) : QueryM C Prepared := do
  let db ← CallM.get
  if db.isOpen then do
    let text ← CallM.lift (strEncodeUtf8 host sql)
    match compile (sqlRead text) db.content with
    | .statement program tail => do
        CallM.modify (·.push (some { program }))
        pure ⟨db.statements.length, tail ++ sqlUnread text⟩
    | .noStatement tail => do
        CallM.modify (·.push none)
        pure ⟨db.statements.length, tail ++ sqlUnread text⟩
    | .error status errmsg => do
        CallM.lift (check status.1 errmsg)
        pure ⟨db.statements.length, []⟩
  else CallM.lift (.raise ⟨.ArgumentError, "prepare called on a closed database"⟩)

/-- `stmt.close unless stmt.closed?`. -/
def closeUnlessClosed (stmt : Prepared) : QueryM C Unit := do
  let db ← CallM.get
  if (db.statement stmt.id).isNone then pure () else close stmt

/-- `prepare` with a block. -/
def prepareBlock (sql : RString) (block : Prepared → QueryM C α) : QueryM C α := do
  let stmt ← prepare host compile sql
  CallM.ensure (block stmt) (closeUnlessClosed stmt)

/-- `execute` with a block. -/
def executeBlock (sql : RString) (vars : BindVar) (block : β → Row → QueryM C β) (b : β) :
    QueryM C β :=
  prepareBlock host compile sql fun stmt => do
    bindParams host stmt [vars]
    let rs ← buildResultSet stmt
    rs.each block b

/-- `execute` without a block. -/
def execute (sql : RString) (vars : BindVar) : QueryM C (List Row) :=
  prepareBlock host compile sql fun stmt => do
    bindParams host stmt [vars]
    let rs ← buildResultSet stmt
    rs.toA

/-- `execute2` with a block. -/
def execute2Block (sql : RString) (vars : List BindVar) (block : β → Row → QueryM C β) (b : β) :
    QueryM C β :=
  prepareBlock host compile sql fun stmt => do
    let result ← statementExecute host stmt vars
    let b ← block b (.header (← columns stmt))
    result.each block b

/-- `execute2` without a block. -/
def execute2 (sql : RString) (vars : List BindVar) : QueryM C (List Row) :=
  prepareBlock host compile sql fun stmt => do
    let result ← statementExecute host stmt vars
    let header ← columns stmt
    result.each pushRow [.header header]

/-- `query` without a block. -/
def query (sql : RString) (vars : BindVar) : QueryM C ResultSet := do
  let stmt ← prepare host compile sql
  statementExecute host stmt [vars]

/-- `query` with a block. -/
def queryBlock (sql : RString) (vars : BindVar) (block : ResultSet → QueryM C α) : QueryM C α := do
  let result ← query host compile sql vars
  CallM.ensure (block result) (close result.stmt)

/-- `get_first_row`. `execute` takes one argument after the text. -/
def getFirstRow (sql : RString) (vars : List BindVar) : QueryM C (Option Row) :=
  match vars with
  | [] => do
      let rows ← execute host compile sql (.array [])
      pure rows.head?
  | [var] => do
      let rows ← execute host compile sql var
      pure rows.head?
  | _ =>
      CallM.lift (.raise ⟨.ArgumentError, "wrong number of arguments (given " ++
        toString (vars.length + 1) ++ ", expected 1..2)"⟩)

/-- `row[0]`, or the value under the name of the first column. -/
def firstValue (row : Row) (columns : List String) : Value :=
  match row with
  | .array values => values.head?.getD .nil
  | .hash entries => ((entries.find? fun e => columns.head? = some e.1).map (·.2)).getD .nil
  | .header _ => .nil

/-- `get_first_value`. -/
def getFirstValue (sql : RString) (vars : List BindVar) : QueryM C Value :=
  queryBlock host compile sql (.array vars) fun rs => do
    match ← rs.next with
    | none => pure .nil
    | some row => do
        let columns ← columns rs.stmt
        pure (firstValue row columns)

/-! ## `Pragmas` -/

def utf8String (bytes : List UInt8) : RString := ⟨.string, .utf8, bytes⟩

def pragmaText (name : List UInt8) : RString :=
  utf8String ("PRAGMA ".toUTF8.toList ++ name)

/-- The readers of one value. -/
def pragmaReader (name : List UInt8) (convert : Value → Outcome α) : QueryM C α := do
  let value ← getFirstValue host compile (pragmaText name) []
  CallM.lift (convert value)

/-- `get_boolean_pragma`. -/
def getBooleanPragma (name : List UInt8) : QueryM C Bool :=
  pragmaReader host compile name fun value => .ok (value ≠ .integer 0)

/-- `get_enum_pragma`. -/
def getEnumPragma (name : List UInt8) : QueryM C Value := pragmaReader host compile name .ok

/-- `get_int_pragma`, with Ruby's `to_i`. -/
def getIntPragma (toI : Value → Outcome Int) (name : List UInt8) : QueryM C Int :=
  pragmaReader host compile name toI

/-- The text of `get_query_pragma`. -/
def queryPragmaText (name : List UInt8) (params : List (List UInt8)) : RString :=
  if params.isEmpty then pragmaText name
  else
    pragmaText (name ++ "( '".toUTF8.toList ++ "','".toUTF8.toList.intercalate params ++
      "' )".toUTF8.toList)

/-- `get_query_pragma` with a block. -/
def getQueryPragmaBlock (name : List UInt8) (params : List (List UInt8))
    (block : β → Row → QueryM C β) (b : β) : QueryM C β :=
  executeBlock host compile (queryPragmaText name params) (.array []) block b

/-- `get_query_pragma` without a block. -/
def getQueryPragma (name : List UInt8) (params : List (List UInt8)) : QueryM C (List Row) :=
  execute host compile (queryPragmaText name params) (.array [])

def tableInfoText (table : List UInt8) : RString :=
  pragmaText ("table_info(".toUTF8.toList ++ table ++ ")".toUTF8.toList)

/-- What `table_info` does with a row. `tweak` is what is done to it before it is handed on:
`tweak_default` and `downcase`, which raise for a broken string. -/
def tableInfoRow (tweak : List (String × Value) → Outcome (List (String × Value)))
    (block : β → List (String × Value) → QueryM C β) (columns : List String) (b : β)
    (row : List Value) : QueryM C β := do
  let newRow ← CallM.lift (tweak (zipToH columns row))
  block b newRow

/-- `table_info` with a block. -/
def tableInfoBlock (tweak : List (String × Value) → Outcome (List (String × Value)))
    (table : List UInt8) (block : β → List (String × Value) → QueryM C β) (b : β) :
    QueryM C β := do
  let stmt ← prepare host compile (tableInfoText table)
  let columns ← columns stmt
  let b ← statementEach stmt (tableInfoRow tweak block columns) b
  close stmt
  pure b

/-- `table_info` without a block. -/
def tableInfo (tweak : List (String × Value) → Outcome (List (String × Value)))
    (table : List UInt8) : QueryM C (List (List (String × Value))) :=
  tableInfoBlock host compile tweak table pushRow []

/-! ## Preparing and closing -/

section Runs

variable {host compile} {sql : RString} {text tail : List UInt8} {program : Program C}
  {db : Database C} (rounds : Nat)

theorem prepare_statement (hopen : db.isOpen = true) (htext : strEncodeUtf8 host sql = .ok text)
    (h : compile (sqlRead text) db.content = .statement program tail) :
    prepare host compile sql rounds db =
      some (.ok ⟨db.statements.length, tail ++ sqlUnread text⟩, db.push (some { program })) := by
  rw [prepare, CallM.get_bind, if_pos hopen, htext, CallM.lift_ok_bind, h]
  rfl

theorem prepare_noStatement (hopen : db.isOpen = true) (htext : strEncodeUtf8 host sql = .ok text)
    (h : compile (sqlRead text) db.content = .noStatement tail) :
    prepare host compile sql rounds db =
      some (.ok ⟨db.statements.length, tail ++ sqlUnread text⟩, db.push none) := by
  rw [prepare, CallM.get_bind, if_pos hopen, htext, CallM.lift_ok_bind, h]
  rfl

/-- A text whose length SQLite can tell is read as a whole. -/
theorem prepare_statement_short (hopen : db.isOpen = true)
    (htext : strEncodeUtf8 host sql = .ok text) (hshort : text.length < 2 ^ 32)
    (h : compile (cString text) db.content = .statement program tail) :
    prepare host compile sql rounds db =
      some (.ok ⟨db.statements.length, tail⟩, db.push (some { program })) := by
  rw [prepare_statement rounds hopen htext ((sqlRead_eq hshort).symm ▸ h), sqlUnread_eq hshort,
    List.append_nil]

theorem prepare_noStatement_short (hopen : db.isOpen = true)
    (htext : strEncodeUtf8 host sql = .ok text) (hshort : text.length < 2 ^ 32)
    (h : compile (cString text) db.content = .noStatement tail) :
    prepare host compile sql rounds db =
      some (.ok ⟨db.statements.length, tail⟩, db.push none) := by
  rw [prepare_noStatement rounds hopen htext ((sqlRead_eq hshort).symm ▸ h), sqlUnread_eq hshort,
    List.append_nil]

/-- The database without the statement, open or not. -/
def Database.without (db : Database C) (id : Nat) : Database C :=
  if (db.statement id).isNone then db else db.finalize id

theorem closeUnlessClosed_run (stmt : Prepared) (db : Database C) :
    closeUnlessClosed stmt rounds db = some (.ok (), db.without stmt.id) := by
  rw [closeUnlessClosed, CallM.get_bind, Database.without]
  cases h : db.statement stmt.id with
  | none =>
      rw [if_pos (by simp), if_pos (by simp)]
      rfl
  | some s =>
      rw [if_neg (by simp), if_neg (by simp), close, CallM.get_bind, h, if_pos (by simp)]
      rfl

@[simp] theorem Database.without_content (db : Database C) (id : Nat) :
    (db.without id).content = db.content := by
  rw [without]
  split <;> rfl

@[simp] theorem Database.without_events (db : Database C) (id : Nat) :
    (db.without id).events = db.events := by
  rw [without]
  split <;> rfl

@[simp] theorem Database.without_isOpen (db : Database C) (id : Nat) :
    (db.without id).isOpen = db.isOpen := by
  rw [without]
  split <;> rfl

/-- A block of `prepare` that ends. -/
theorem prepareBlock_run {α : Type} {block : Prepared → QueryM C α} {stmt : Prepared}
    {db' db'' : Database C} {o : Outcome α}
    (hprepare : prepare host compile sql rounds db = some (.ok stmt, db'))
    (hblock : block stmt rounds db' = some (o, db'')) :
    prepareBlock host compile sql block rounds db = some (o, db''.without stmt.id) :=
  (CallM.bind_run_ok stmt _ hprepare).trans
    (CallM.ensure_run hblock (closeUnlessClosed_run rounds stmt db''))

end Runs

end Database

end Sqlite3Ruby.Query
