import Mathlib.Data.List.Chain
import Mathlib.Logic.Function.Basic
import Sqlite3Ruby.Binding
import Sqlite3Ruby.Lib.StepSystem

/-!
# `Statement`: the virtual machine and the flag `done_p`

SQLite compiles a text to a program and runs it on a virtual machine, one row a
step. `Statement` keeps `done_p` beside the machine, so as not to step it again
after `SQLITE_DONE`, where SQLite would start over.

## Implementation notes

What a step answers depends on what is bound and on the content of the database, at
this step and at the earlier ones of the execution; an execution need not end. The
content is everything a statement and the callbacks it makes can change. `events` is
the record of what happens to the machine.
-/

namespace Sqlite3Ruby

/-- What `sqlite3_step` answers, with the exception that a callback has left pending. -/
inductive Answer (C : Type)
  | row (pending : Option RubyException) (values : List SqliteValue) (content : C)
  | done (pending : Option RubyException) (content : C)
  | error (pending : Option RubyException) (status : ErrorStatus) (errmsg : String) (content : C)

namespace Answer

variable {C : Type}

def pending : Answer C → Option RubyException
  | row pending _ _ => pending
  | done pending _ => pending
  | error pending _ _ _ => pending

/-- The content of the database after the step. -/
def content : Answer C → C
  | row _ _ content => content
  | done _ content => content
  | error _ _ _ content => content

def isRow : Answer C → Bool
  | row _ _ _ => true
  | _ => false

def isDone : Answer C → Bool
  | done _ _ => true
  | _ => false

end Answer

/-- What is bound to each parameter. -/
abbrev Bindings := Nat → Stored

/-- What a step finds. -/
structure View (C : Type) where
  bindings : Bindings
  content : C

/-- A compiled statement. One without columns returns no data. -/
structure Program (C : Type) where
  columns : List String
  parameterCount : Nat
  parameterIndex : List UInt8 → Nat
  answer : List (View C) → View C → Answer C
  rowless : columns = [] → ∀ earlier now, (answer earlier now).isRow = false

/-- The virtual machine of a statement. -/
inductive Vm (C : Type)
  | ready
  | rows (earlier : List (View C))
  | done
  | failed

namespace Vm

variable {C : Type}

def isReady : Vm C → Bool
  | ready => true
  | _ => false

/-- The machine has run to `SQLITE_DONE`. -/
def isDone : Vm C → Bool
  | done => true
  | _ => false

/-- The machine is in the middle of an execution. -/
def isActive : Vm C → Bool
  | rows _ => true
  | _ => false

/-- The steps of this execution so far. A machine that has halted starts over. -/
def earlier : Vm C → List (View C)
  | rows earlier => earlier
  | _ => []

end Vm

/-- An open statement of a live database. -/
structure Statement (C : Type) where
  program : Program C
  vm : Vm C := .ready
  bindings : Bindings := fun _ => .value .null
  doneP : Bool := false

/-- `active?`. -/
def Statement.isActive {C : Type} (s : Statement C) : Bool := !s.doneP

inductive VmEvent
  | started
  | completed
  | reset
  deriving DecidableEq

/-- A statement with the content of its database. -/
structure Machine (C : Type) where
  content : C
  statement : Statement C
  events : List VmEvent

abbrev StatementM (C : Type) := RubyM (Machine C)

namespace Machine

variable {C : Type}

def view (m : Machine C) : View C := ⟨m.statement.bindings, m.content⟩

/-- What the next `sqlite3_step` answers. -/
def next (m : Machine C) : Answer C :=
  m.statement.program.answer m.statement.vm.earlier m.view

def setVm (m : Machine C) (vm : Vm C) : Machine C :=
  { m with statement := { m.statement with vm := vm } }

def setDoneP (m : Machine C) (doneP : Bool) : Machine C :=
  { m with statement := { m.statement with doneP := doneP } }

def setBindings (m : Machine C) (bindings : Bindings) : Machine C :=
  { m with statement := { m.statement with bindings := bindings } }

def record (m : Machine C) (events : List VmEvent) : Machine C :=
  { m with events := m.events ++ events }

/-- The machine after `sqlite3_step`. -/
def stepped (m : Machine C) : Machine C :=
  let started := if m.statement.vm.isActive then [] else [VmEvent.started]
  let m' := { m with content := m.next.content }
  match m.next with
  | .row _ _ _ => (m'.setVm (.rows (m.statement.vm.earlier ++ [m.view]))).record started
  | .done _ _ => (m'.setVm .done).record (started ++ [.completed])
  | .error _ _ _ _ => (m'.setVm .failed).record started

/-- The machine after `sqlite3_reset`. -/
def reset (m : Machine C) : Machine C := (m.setVm .ready).record [.reset]

end Machine

/-! ## What is bound -/

/-- The key of a parameter. -/
inductive ParamKey
  | symbol (name : List UInt8)
  | value (key : Value)

/-- The index of a named parameter, with a colon before the name if there is none. -/
def Program.namedIndex {C : Type} (program : Program C) (key : List UInt8) : Int :=
  let key := if key.head? = some 58 then key else 58 :: key
  program.parameterIndex (key.takeWhile (· ≠ 0))

/-- The switch of `bind_param` over the key. -/
def ParamKey.index {C : Type} (program : Program C) : ParamKey → Outcome Int
  | symbol name => .ok (program.namedIndex name)
  | value (.string s) => .ok (program.namedIndex s.bytes)
  | value key => num2int key

/-- A bind variable: a value, a hash, or an array of them. -/
inductive BindVar
  | value (v : Value)
  | hash (entries : List (ParamKey × Value))
  | array (vars : List BindVar)

/-- A bind variable that is no array. -/
inductive FlatVar
  | value (v : Value)
  | hash (entries : List (ParamKey × Value))

mutual

/-- `Array#flatten`. -/
def BindVar.flatten : BindVar → List FlatVar
  | .value v => [.value v]
  | .hash entries => [.hash entries]
  | .array vars => flattenAll vars

def flattenAll : List BindVar → List FlatVar
  | [] => []
  | var :: vars => var.flatten ++ flattenAll vars

end

namespace Statement

variable {C : Type} (host : Host)

/-- `SQLITE_MISUSE`, `SQLITE_RANGE` or `SQLITE_TOOBIG`. -/
def bindErrmsg (status : Nat) : String :=
  if status = 21 then "bad parameter or other API misuse"
  else if status = 25 then "column index out of range"
  else "string or blob too big"

/-- A `sqlite3_bind_*` call. SQLite refuses it once the machine has started; a value
that is too big leaves NULL. -/
def sqlite3Bind (index : Int) (stored : Stored) : StatementM C Nat := fun m =>
  if !m.statement.vm.isReady then (.ok 21, m)
  else if index < 1 ∨ m.statement.program.parameterCount < index then (.ok 25, m)
  else
    let bound := if stored.status = 0 then stored else .value .null
    (.ok stored.status,
      m.setBindings (Function.update m.statement.bindings index.toNat bound))

/-- `bind_param`. -/
def bindParam (key : ParamKey) (value : Value) : StatementM C Unit := do
  let m ← RubyM.get
  let index ← RubyM.lift (key.index m.statement.program)
  if index = 0 then RubyM.lift (.raise ⟨.SQLite3Exception, "no such bind parameter"⟩)
  else do
    let call ← RubyM.lift (bindCall host value)
    let status ← sqlite3Bind index (call.stored host.byteOrder)
    RubyM.lift (check status (bindErrmsg status))

/-- `bind_param` for each entry of a hash. -/
def bindEntries : List (ParamKey × Value) → StatementM C Unit
  | [] => pure ()
  | (key, value) :: entries => do
      bindParam host key value
      bindEntries entries

/-- The loop of `bind_params`. -/
def bindEach (index : Int) : List FlatVar → StatementM C Unit
  | [] => pure ()
  | .hash entries :: vars => do
      bindEntries host entries
      bindEach index vars
  | .value v :: vars => do
      bindParam host (.value (.integer index)) v
      bindEach (index + 1) vars

/-- `bind_params`. -/
def bindParams (vars : List BindVar) : StatementM C Unit := bindEach host 1 (flattenAll vars)

/-! ## The methods that run the machine -/

/-- `step`: a row, or `nil`. -/
def step : StatementM C (Option (List Value)) := do
  let m ← RubyM.get
  if m.statement.doneP then pure none
  else do
    RubyM.modify Machine.stepped
    match m.next.pending, m.next with
    | some e, _ => RubyM.lift (.raise e)
    | none, .row _ values _ => pure (some (values.map columnToRb))
    | none, .done _ _ => do
        RubyM.modify (·.setDoneP true)
        pure none
    | none, .error _ status errmsg _ => do
        RubyM.modify fun m => m.reset.setDoneP false
        RubyM.lift (check status.1 errmsg)
        pure (some [])

/-- `reset!`. -/
def resetBang : StatementM C Unit := RubyM.modify fun m => m.reset.setDoneP false

/-- `clear_bindings!`. -/
def clearBindingsBang : StatementM C Unit :=
  RubyM.modify fun m => (m.setBindings fun _ => .value .null).setDoneP false

/-- `execute`, up to the result set that it returns. -/
def execute (vars : List BindVar) : StatementM C Unit := do
  let m ← RubyM.get
  if m.statement.isActive || m.statement.doneP then resetBang else pure ()
  if vars.isEmpty then pure () else bindParams host vars
  if m.statement.program.columns.isEmpty then do
    let _ ← step
    pure ()
  else pure ()

end Statement

end Sqlite3Ruby
