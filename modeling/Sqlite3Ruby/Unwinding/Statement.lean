import Sqlite3Ruby.DoneFlag

/-!
# Statements whose calls are unwound

The result of an aggregate is converted outside of `rb_protect`, and so are the answers of a
collation and of the other hooks. An exception there jumps over `sqlite3_step` and leaves the
machine in the middle of its execution. `sqlite3_reset` and `sqlite3_finalize` then halt it,
with the same callbacks once more.

## Implementation notes

Which calls are unwound, and what a machine that is halted does to the content, is a
parameter, as what a program answers is; both depend on what the machine has seen since it
was last ready. What the callbacks keep for themselves is part of the content, and so is an
exception that they leave pending.
-/

namespace Sqlite3Ruby

/-- What the callbacks of a connection do to the calls into SQLite that they are made from. -/
structure Unwinding (C : Type) where
  /-- The exception that jumps over a `sqlite3_step`, and the content it leaves. -/
  step : Program C → List (View C) → View C → Option (RubyException × C)
  /-- The content after a machine in the middle of its execution is halted, and the exception
  that jumps over this. -/
  halt : Program C → List (View C) → View C → Option RubyException × C
  /-- The exception that jumps over a `sqlite3_prepare_v2`, the content it leaves, and the
  statement that SQLite had begun. -/
  prepare : List UInt8 → C → Option (RubyException × C × Option (Program C))

namespace Unwinding

variable {C : Type}

/-- Every call comes back, and halting a machine changes nothing. -/
def calm : Unwinding C where
  step _ _ _ := none
  halt _ _ now := (none, now.content)
  prepare _ _ := none

/-- What becomes of the machine when it is halted in the middle of its execution. -/
def halted (u : Unwinding C) (m : Machine C) : Option RubyException × C :=
  u.halt m.statement.program m.statement.vm.earlier m.view

/-- `sqlite3_reset` comes back and leaves the content as it was. -/
def ResetsQuietly (u : Unwinding C) (m : Machine C) : Prop :=
  m.statement.vm.isActive = true → u.halted m = (none, m.content)

end Unwinding

namespace Machine

variable {C : Type}

/-- The machine after a call that was unwound. It goes on with its execution. -/
def unwound (m : Machine C) (content : C) : Machine C :=
  ({ m with content }.setVm (.rows (m.statement.vm.earlier ++ [m.view]))).record
    (if m.statement.vm.isActive then [] else [.started])

end Machine

namespace Statement.Unwinding

variable {C : Type} (u : Unwinding C) (host : Host)

/-- `sqlite3_step`. -/
def sqlite3Step : StatementM C (Answer C) := fun m =>
  match u.step m.statement.program m.statement.vm.earlier m.view with
  | some (e, content) => (.raise e, m.unwound content)
  | none => (.ok m.next, m.stepped)

/-- What `sqlite3_reset` and `sqlite3_finalize` begin with. -/
def sqlite3VdbeReset : StatementM C Unit := fun m =>
  if m.statement.vm.isActive then
    match u.halted m with
    | (some e, content) => (.raise e, m.unwound content)
    | (none, content) => (.ok (), { m with content })
  else (.ok (), m)

/-- `sqlite3_reset`. -/
def sqlite3Reset : StatementM C Unit := do
  sqlite3VdbeReset u
  RubyM.modify Machine.reset

/-- `step`. -/
def step : StatementM C (Option (List Value)) := do
  let m ← RubyM.get
  if m.statement.doneP then pure none
  else do
    let answer ← sqlite3Step u
    match answer.pending, answer with
    | some e, _ => RubyM.lift (.raise e)
    | none, .row _ values _ => pure (some (values.map columnToRb))
    | none, .done _ _ => do
        RubyM.modify (·.setDoneP true)
        pure none
    | none, .error _ status errmsg _ => do
        sqlite3Reset u
        RubyM.modify (·.setDoneP false)
        RubyM.lift (check status.1 errmsg)
        pure (some [])

/-- `reset!`. -/
def resetBang : StatementM C Unit := do
  sqlite3Reset u
  RubyM.modify (·.setDoneP false)

/-- `execute`, up to the result set that it returns. -/
def execute (vars : List BindVar) : StatementM C Unit := do
  let m ← RubyM.get
  if m.statement.isActive || m.statement.doneP then resetBang u else pure ()
  if vars.isEmpty then pure () else Statement.bindParams host vars
  if m.statement.program.columns.isEmpty then do
    let _ ← step u
    pure ()
  else pure ()

/-! ## Where nothing is unwound -/

theorem sqlite3VdbeReset_quiet {m : Machine C} (h : u.ResetsQuietly m) :
    sqlite3VdbeReset u m = (.ok (), m) := by
  rw [sqlite3VdbeReset]
  cases hactive : m.statement.vm.isActive with
  | true => rw [if_pos rfl, h hactive]
  | false => rw [if_neg Bool.false_ne_true]

theorem sqlite3VdbeReset_returns_iff (m : Machine C) :
    (sqlite3VdbeReset u m).1.Returns ↔
      (m.statement.vm.isActive = true → (u.halted m).1 = none) := by
  rw [sqlite3VdbeReset]
  cases hactive : m.statement.vm.isActive with
  | true =>
      rw [if_pos rfl]
      rcases u.halted m with ⟨_ | e, content⟩
      · exact iff_of_true (Outcome.returns_ok ()) fun _ => rfl
      · exact iff_of_false (Outcome.not_returns_raise e) (by simp)
  | false =>
      rw [if_neg Bool.false_ne_true]
      exact iff_of_true (Outcome.returns_ok ()) (by simp)

theorem sqlite3Reset_quiet {m : Machine C} (h : u.ResetsQuietly m) :
    sqlite3Reset u m = (.ok (), m.reset) :=
  RubyM.bind_run_ok () _ (sqlite3VdbeReset_quiet u h)

theorem resetsQuietly_calm (m : Machine C) : (Unwinding.calm : Unwinding C).ResetsQuietly m :=
  fun _ => rfl

theorem resetsQuietly_of_not_active {m : Machine C} (h : m.statement.vm.isActive = false) :
    u.ResetsQuietly m := fun hactive => absurd (h.symm.trans hactive) Bool.false_ne_true

theorem resetBang_quiet {m : Machine C} (h : u.ResetsQuietly m) :
    resetBang u m = Statement.resetBang m := RubyM.bind_run_ok () _ (sqlite3Reset_quiet u h)

theorem stepped_not_active {m : Machine C} {pending : Option RubyException} {status : ErrorStatus}
    {errmsg : String} {content : C} (h : m.next = .error pending status errmsg content) :
    m.stepped.statement.vm.isActive = false := by
  rw [Machine.stepped, h]
  rfl

/-- A step that comes back is the step of a statement whose calls all do. -/
theorem step_back {m : Machine C}
    (h : u.step m.statement.program m.statement.vm.earlier m.view = none) :
    step u m = Statement.step m := by
  rw [step, Statement.step, RubyM.get_bind, RubyM.get_bind]
  cases m.statement.doneP with
  | true => rfl
  | false =>
      have hstep : sqlite3Step u m = (.ok m.next, m.stepped) := by rw [sqlite3Step, h]
      simp only [Bool.false_eq_true, if_false, RubyM.modify_bind]
      rw [RubyM.bind_run_ok _ _ hstep]
      cases hnext : m.next with
      | row pending values content => cases pending <;> rfl
      | done pending content => cases pending <;> rfl
      | error pending status errmsg content =>
          cases pending with
          | some e => rfl
          | none =>
              exact RubyM.bind_run_ok () _
                (sqlite3Reset_quiet u (resetsQuietly_of_not_active u (stepped_not_active hnext)))

/-- A step that is unwound. -/
theorem step_unwound {m : Machine C} (hdone : m.statement.doneP = false) {e : RubyException}
    {content : C}
    (h : u.step m.statement.program m.statement.vm.earlier m.view = some (e, content)) :
    step u m = (.raise e, m.unwound content) := by
  have hstep : sqlite3Step u m = (.raise e, m.unwound content) := by rw [sqlite3Step, h]
  rw [step, RubyM.get_bind, hdone, if_neg Bool.false_ne_true]
  exact RubyM.bind_run_raise _ hstep

theorem step_calm : step (Unwinding.calm : Unwinding C) = Statement.step :=
  funext fun _ => step_back Unwinding.calm rfl

theorem resetBang_calm : resetBang (Unwinding.calm : Unwinding C) = Statement.resetBang :=
  funext fun m => resetBang_quiet Unwinding.calm (resetsQuietly_calm m)

theorem execute_calm : execute (Unwinding.calm : Unwinding C) host = Statement.execute host := by
  funext vars
  rw [execute, Statement.execute, resetBang_calm, step_calm]

/-! ## The parts of `execute` -/

/-- `step if column_count == 0`. -/
def stepWithoutColumns : StatementM C Unit := do
  let m ← RubyM.get
  if m.statement.program.columns.isEmpty then do
    let _ ← step u
    pure ()
  else pure ()

/-- The part of `execute` that follows the reset. -/
def afterReset (vars : List BindVar) : StatementM C Unit := do
  Statement.bindParams host vars
  stepWithoutColumns u

theorem bindParams_program (vars : List BindVar) (m : Machine C) :
    (Statement.bindParams host vars m).2.statement.program = m.statement.program := by
  obtain ⟨bindings, hbound⟩ := bindEach_same host 1 (flattenAll vars) m
  exact congrArg (·.statement.program) hbound

/-- The columns are read before the statement is bound, which does not change them. -/
theorem afterReset_columns (vars : List BindVar) (m : Machine C) :
    (Statement.bindParams host vars >>= fun _ =>
      if m.statement.program.columns.isEmpty then do
        let _ ← step u
        pure ()
      else pure () : StatementM C Unit) m = afterReset u host vars m := by
  have hprogram := bindParams_program host vars m
  rw [afterReset]
  rcases hrun : Statement.bindParams host vars m with ⟨o, t⟩
  rw [hrun] at hprogram
  cases o with
  | ok a =>
      rw [RubyM.bind_run_ok a _ hrun, RubyM.bind_run_ok a _ hrun, stepWithoutColumns,
        RubyM.get_bind, hprogram]
  | raise e => rw [RubyM.bind_run_raise _ hrun, RubyM.bind_run_raise _ hrun]
  | jump tag => rw [RubyM.bind_run_jump _ hrun, RubyM.bind_run_jump _ hrun]

theorem resetBang_program (m : Machine C) :
    (resetBang u m).2.statement.program = m.statement.program := by
  rw [resetBang]
  refine RubyM.final_bind (P := fun t : Machine C => t.statement.program = m.statement.program)
    ?_ fun _ _ h => h
  refine RubyM.final_bind (P := fun t : Machine C => t.statement.program = m.statement.program)
    ?_ fun _ _ h => h
  unfold sqlite3VdbeReset
  split
  · split <;> rfl
  · rfl

/-- `execute` resets the statement, whatever its flag says. -/
theorem execute_eq (vars : List BindVar) :
    execute u host vars = (resetBang u >>= fun _ => afterReset u host vars) := by
  funext m
  have hactive : (m.statement.isActive || m.statement.doneP) = true := by
    simp [Statement.isActive]
  have hexecute : execute u host vars m =
      (resetBang u >>= fun _ => Statement.bindParams host vars >>= fun _ =>
        if m.statement.program.columns.isEmpty then do
          let _ ← step u
          pure ()
        else pure () : StatementM C Unit) m := by
    rw [execute, RubyM.get_bind, if_pos hactive]
    cases vars with
    | nil => rfl
    | cons var vars => rfl
  have hprogram := resetBang_program u m
  rw [hexecute]
  rcases hreset : resetBang u m with ⟨o, t⟩
  rw [hreset] at hprogram
  cases o with
  | ok a =>
      rw [RubyM.bind_run_ok a _ hreset, RubyM.bind_run_ok a _ hreset, ← afterReset_columns,
        hprogram]
  | raise e => rw [RubyM.bind_run_raise _ hreset, RubyM.bind_run_raise _ hreset]
  | jump tag => rw [RubyM.bind_run_jump _ hreset, RubyM.bind_run_jump _ hreset]

end Statement.Unwinding

/-! ## An aggregate that cannot return `true` -/

namespace Unwinding

/-- `select agg(?)`, for an aggregate that answers the value it was last called with. -/
def selectAgg : Program Unit where
  columns := ["agg(?)"]
  parameterCount := 1
  parameterIndex _ := 0
  answer earlier now :=
    match earlier, now.bindings 1 with
    | [], .value x => .row none [x] ()
    | _, _ => .done none ()
  rowless h := by cases h

def cantReturn : RubyException := ⟨.RuntimeError, "can't return TrueClass"⟩

/-- The aggregate answers `true` for 1: its result cannot be converted, in a step and in the
halting of a machine whose group was not finalized. -/
def refusesOne : Unwinding Unit where
  step _ earlier now :=
    match earlier, now.bindings 1 with
    | [], .value (.integer 1) => some (cantReturn, ())
    | _, _ => none
  halt _ _ now :=
    match now.bindings 1 with
    | .value (.integer 1) => (some cantReturn, ())
    | _ => (none, ())
  prepare _ _ := none

end Unwinding

end Sqlite3Ruby
