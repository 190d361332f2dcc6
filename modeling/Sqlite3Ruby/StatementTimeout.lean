import Mathlib.Logic.Function.Basic
import Sqlite3Ruby.Lib.StepSystem
import Sqlite3Ruby.Ruby.Value

/-!
# `statement_timeout=`

SQLite calls the progress callback every thousand instructions of the statement
that runs; an answer other than zero interrupts it. The callback keeps one
`stmt_deadline` for the connection, sets it when it finds it cleared, and asks
for the interrupt at every later reading of the clock.

## Implementation notes

`running` is the stack of the `sqlite3_step` calls under way: a callback of SQL
may run statements of its own. `execution` and `armed` are not part of the
program. The first records the reading at the first progress callback of each
execution under way; the second the first reading, other than zero, at a
progress callback since the last `prepare`.
-/

namespace Sqlite3Ruby.StatementTimeout

abbrev StmtId := Nat

/-- `struct timespec`, as `clock_gettime` fills it in. -/
structure Timespec where
  sec : Nat
  nsec : Fin 1000000000
  deriving DecidableEq

namespace Timespec

/-- `timespecclear`. -/
def clear : Timespec := ⟨0, 0⟩

/-- `timespecisset`. -/
def isset (t : Timespec) : Bool := t.sec ≠ 0 || t.nsec ≠ 0

/-- `timespecafter`. -/
def after (t u : Timespec) : Bool := u.sec < t.sec || t.sec = u.sec && u.nsec < t.nsec

/-- The time in nanoseconds. -/
def nanos (t : Timespec) : Nat := t.sec * 1000000000 + t.nsec

theorem after_iff (t u : Timespec) : t.after u = true ↔ u.nanos < t.nanos := by
  have ht := t.nsec.isLt
  have hu := u.nsec.isLt
  simp only [after, nanos, Bool.or_eq_true, Bool.and_eq_true, decide_eq_true_eq, Fin.lt_def]
  omega

end Timespec

/-- The fields of the context struct that the timeout uses, and the number of
instructions between two progress callbacks. -/
structure Context where
  stmtTimeout : Int
  stmtDeadline : Timespec
  progressOps : Int

/-- `rb_sqlite3_statement_timeout`, at a reading of the clock: whether it asks for
the interrupt. -/
def rbSqlite3StatementTimeout (currentTime : Timespec) (ctx : Context) : Bool × Context :=
  if !ctx.stmtDeadline.isset then
    -- Set stmt_deadline if not already set
    (false, { ctx with stmtDeadline := currentTime })
  else if currentTime.after ctx.stmtDeadline then (true, ctx)
  else (false, ctx)

/-- `set_statement_timeout`. -/
def setStatementTimeout (milliseconds : Value) : RubyM Context Unit := do
  let timeout ← RubyM.lift (num2int milliseconds)
  RubyM.modify fun ctx => { ctx with stmtTimeout := timeout }
  let timeout ← RubyM.lift (num2int milliseconds)
  RubyM.modify fun ctx => { ctx with progressOps := if timeout = 0 then -1 else 1000 }

/-- A statement: `done_p`, and its execution, if one is under way, with the reading at
its first progress callback. -/
structure Statement where
  doneP : Bool
  execution : Option (Option Timespec)

structure System where
  ctx : Context
  clock : Timespec
  statements : StmtId → Option Statement
  running : List StmtId
  armed : Option Timespec

/-- The answer of `sqlite3_step`. -/
inductive StepAnswer
  | row
  | done
  | error

inductive Event
  | prepare (s : StmtId)
  | step (s : StmtId)
  | progress (currentTime : Timespec)
  | stepReturns (answer : StepAnswer)
  | reset (s : StmtId)
  | clearBindings (s : StmtId)
  | close (s : StmtId)

def System.setStatement (u : System) (s : StmtId) (statement : Option Statement) : System :=
  { u with statements := Function.update u.statements s statement }

/-- The statement is open and not being stepped. -/
def System.idle (u : System) (s : StmtId) : Option Statement :=
  if s ∈ u.running then none else u.statements s

/-- `timespecclear` in `prepare`. -/
def System.prepared (u : System) (s : StmtId) : System :=
  { u.setStatement s (some ⟨false, none⟩) with
    ctx := { u.ctx with stmtDeadline := .clear }
    armed := none }

/-- `Statement#step` up to the call of `sqlite3_step`, which starts an execution when
none is under way. -/
def System.stepped (u : System) (s : StmtId) (statement : Statement) : System :=
  if statement.doneP then u
  else
    { u.setStatement s (some { statement with execution := some (statement.execution.getD none) })
      with running := s :: u.running }

/-- `sqlite3_step` is over, and `Statement#step` resets a statement that failed. -/
def System.returned (u : System) (answer : StepAnswer) : System :=
  match u.running with
  | [] => u
  | s :: running =>
      match u.statements s, answer with
      | some statement, .row => { u.setStatement s (some statement) with running := running }
      | some _, .done => { u.setStatement s (some ⟨true, none⟩) with running := running }
      | some _, .error => { u.setStatement s (some ⟨false, none⟩) with running := running }
      | none, _ => { u with running := running }

/-- The reading at the first progress callback of the innermost execution, which may be
the present one. -/
def System.started (u : System) (currentTime : Timespec) : Timespec :=
  match u.running with
  | [] => currentTime
  | s :: _ =>
      match u.statements s with
      | some ⟨_, some (some first)⟩ => first
      | _ => currentTime

/-- The first progress callback of an execution is on record. -/
def System.recorded (u : System) (currentTime : Timespec) : System :=
  match u.running with
  | [] => u
  | s :: _ =>
      match u.statements s with
      | some statement =>
          u.setStatement s (some { statement with execution := some (some (u.started currentTime)) })
      | none => u

/-- A progress callback. SQLite makes the step that it interrupts fail. -/
def System.progressed (u : System) (currentTime : Timespec) : System :=
  let answer := rbSqlite3StatementTimeout currentTime u.ctx
  let u' := { u.recorded currentTime with
    ctx := answer.2
    clock := currentTime
    armed := u.armed.or (if currentTime.isset then some currentTime else none) }
  if answer.1 then u'.returned .error else u'

/-- One event. The clock never goes back, and a progress callback comes inside a
`sqlite3_step`, if there is a handler. -/
def step (u : System) : Event → Option System
  | .prepare s => if s ∈ u.running then none else some (u.prepared s)
  | .step s => (u.idle s).map (u.stepped s)
  | .progress currentTime =>
      if u.running = [] ∨ currentTime.nanos < u.clock.nanos ∨ u.ctx.progressOps < 0 then none
      else some (u.progressed currentTime)
  | .stepReturns answer => if u.running = [] then none else some (u.returned answer)
  | .reset s => (u.idle s).map fun _ => u.setStatement s (some ⟨false, none⟩)
  | .clearBindings s =>
      (u.idle s).map fun statement => u.setStatement s (some { statement with doneP := false })
  | .close s => (u.idle s).map fun _ => u.setStatement s none

/-- A new connection after `statement_timeout = milliseconds`. -/
def start (milliseconds : Nat) : System :=
  ⟨(setStatementTimeout (.integer milliseconds) ⟨0, .clear, -1⟩).2, .clear, fun _ => none, [], none⟩

/-! ## What the timeout is for -/

/-- More than `milliseconds` have gone by since the first progress callback of the
execution. -/
def System.isOverdue (u : System) (milliseconds : Nat) (currentTime : Timespec) : Bool :=
  (u.started currentTime).nanos + milliseconds * 1000000 < currentTime.nanos

/-- The callback asks for an interrupt exactly when the execution has used up its time. -/
def Right (milliseconds : Nat) (u : System) : Event → Prop
  | .progress currentTime =>
      (rbSqlite3StatementTimeout currentTime u.ctx).1 = u.isOverdue milliseconds currentTime
  | _ => True

/-- A progress callback comes later than the first one since the last `prepare` on the
connection exactly when the execution has used up its time. -/
def Meets (milliseconds : Nat) (u : System) : Event → Prop
  | .progress currentTime =>
      (∃ first, u.armed = some first ∧ first.nanos < currentTime.nanos) ↔
        u.isOverdue milliseconds currentTime = true
  | _ => True

/-- `stmt_deadline` is the reading at the first progress callback since the last
`prepare`. -/
def Inv (u : System) : Prop :=
  u.armed = if u.ctx.stmtDeadline.isset then some u.ctx.stmtDeadline else none

/-- The callback arms the deadline when it is cleared, and leaves it alone afterwards. -/
theorem rbSqlite3StatementTimeout_deadline (currentTime : Timespec) (ctx : Context) :
    (rbSqlite3StatementTimeout currentTime ctx).2.stmtDeadline =
      if ctx.stmtDeadline.isset then ctx.stmtDeadline else currentTime := by
  rw [rbSqlite3StatementTimeout]
  cases ctx.stmtDeadline.isset with
  | false => rfl
  | true =>
      simp only [Bool.not_true, Bool.false_eq_true, if_false, if_true]
      split <;> rfl

theorem rbSqlite3StatementTimeout_interrupts_iff (currentTime : Timespec) (ctx : Context) :
    (rbSqlite3StatementTimeout currentTime ctx).1 = true ↔
      ctx.stmtDeadline.isset = true ∧ ctx.stmtDeadline.nanos < currentTime.nanos := by
  rw [← Timespec.after_iff, rbSqlite3StatementTimeout]
  cases ctx.stmtDeadline.isset with
  | false => simp
  | true => cases hafter : currentTime.after ctx.stmtDeadline <;> simp

/-- The callback asks for an interrupt at every reading later than the one it armed the
deadline with, whatever the timeout is. -/
theorem Inv.interrupts_iff {u : System} (h : Inv u) (currentTime : Timespec) :
    (rbSqlite3StatementTimeout currentTime u.ctx).1 = true ↔
      ∃ first, u.armed = some first ∧ first.nanos < currentTime.nanos := by
  rw [rbSqlite3StatementTimeout_interrupts_iff, h]
  cases hset : u.ctx.stmtDeadline.isset <;> simp

theorem setStatement_inv {u : System} (h : Inv u) (s : StmtId) (statement : Option Statement) :
    Inv (u.setStatement s statement) := h

theorem returned_ctx (u : System) (answer : StepAnswer) :
    (u.returned answer).ctx = u.ctx ∧ (u.returned answer).armed = u.armed := by
  unfold System.returned
  split
  · exact ⟨rfl, rfl⟩
  · split <;> exact ⟨rfl, rfl⟩

theorem inv_progressed {u : System} (h : Inv u) (currentTime : Timespec) :
    Inv (u.progressed currentTime) := by
  have hdeadline := rbSqlite3StatementTimeout_deadline currentTime u.ctx
  have hctx : (u.progressed currentTime).ctx = (rbSqlite3StatementTimeout currentTime u.ctx).2 := by
    simp only [System.progressed]
    split
    · exact (returned_ctx _ _).1
    · rfl
  have harmed : (u.progressed currentTime).armed =
      u.armed.or (if currentTime.isset then some currentTime else none) := by
    simp only [System.progressed]
    split
    · exact (returned_ctx _ _).2
    · rfl
  rw [Inv, hctx, harmed, hdeadline, h]
  cases hset : u.ctx.stmtDeadline.isset <;> simp [hset]

theorem inv_step {u u' : System} {e : Event} (h : Inv u) (hstep : step u e = some u') : Inv u' := by
  cases e with
  | prepare s =>
      simp only [step, Option.ite_none_left_eq_some, Option.some.injEq] at hstep
      obtain ⟨-, rfl⟩ := hstep
      rfl
  | step s =>
      obtain ⟨statement, -, rfl⟩ := Option.map_eq_some_iff.mp hstep
      rw [System.stepped]
      split
      · exact h
      · exact h
  | progress currentTime =>
      simp only [step, Option.ite_none_left_eq_some, Option.some.injEq] at hstep
      obtain ⟨-, rfl⟩ := hstep
      exact inv_progressed h currentTime
  | stepReturns answer =>
      simp only [step, Option.ite_none_left_eq_some, Option.some.injEq] at hstep
      obtain ⟨-, rfl⟩ := hstep
      rw [Inv, (returned_ctx u answer).1, (returned_ctx u answer).2]
      exact h
  | reset s =>
      obtain ⟨statement, -, rfl⟩ := Option.map_eq_some_iff.mp hstep
      exact setStatement_inv h s _
  | clearBindings s =>
      obtain ⟨statement, -, rfl⟩ := Option.map_eq_some_iff.mp hstep
      exact setStatement_inv h s _
  | close s =>
      obtain ⟨statement, -, rfl⟩ := Option.map_eq_some_iff.mp hstep
      exact setStatement_inv h s _

theorem inv_start (milliseconds : Nat) : Inv (start milliseconds) := by
  have hdeadline :
      (setStatementTimeout (.integer milliseconds) ⟨0, .clear, -1⟩).2.stmtDeadline = .clear := by
    rw [setStatementTimeout]
    cases num2int (.integer milliseconds) <;> rfl
  rw [Inv, start, hdeadline]
  rfl

/-- Over any run of any statements: every progress callback asks for an interrupt when it
should exactly when every one of them meets the condition. -/
theorem timeout_exact_iff (milliseconds : Nat) (es : List Event) :
    StepSystem.AlwaysStep step (Right milliseconds) (start milliseconds) es ↔
      StepSystem.AlwaysStep step (Meets milliseconds) (start milliseconds) es := by
  apply StepSystem.alwaysStep_congr (fun _ _ _ => inv_step) _ (inv_start milliseconds)
  intro u e u' h _
  cases e with
  | progress currentTime =>
      rw [Right, Bool.eq_iff_iff, h.interrupts_iff currentTime]
      exact Iff.rfl
  | prepare s => exact Iff.rfl
  | step s => exact Iff.rfl
  | stepReturns answer => exact Iff.rfl
  | reset s => exact Iff.rfl
  | clearBindings s => exact Iff.rfl
  | close s => exact Iff.rfl

/-- Two progress callbacks of one execution, a millisecond apart. -/
def twoCallbacks : List Event :=
  [.prepare 0, .step 0, .progress ⟨1, 0⟩, .progress ⟨1, 1000000⟩]

/-- A statement that may take a second is interrupted after a millisecond. -/
theorem twoCallbacks_interrupts :
    ¬ StepSystem.AlwaysStep step (Right 1000) (start 1000) twoCallbacks := by
  intro h
  have hfirst := (((h _ rfl).2 _ rfl).2 _ rfl).2
  have hright := (hfirst _ rfl).1
  rw [Right] at hright
  exact absurd hright (by decide)

end Sqlite3Ruby.StatementTimeout
