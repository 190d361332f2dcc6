import Sqlite3Ruby.Callback
import Sqlite3Ruby.Parameters
import Sqlite3Ruby.QueryRows

/-!
# The exception that a callback leaves pending

A callback cannot raise through SQLite. `rb_protect` leaves the exception it has caught
in `rb_errinfo`, and `step` raises it once `sqlite3_step` is back. The cell belongs to
the thread: whatever Ruby code runs in between writes it as well.

## Implementation notes

Exceptions are objects here, and two of them may look alike. User code is what it does
to the cell and how it ends. The pieces of it that a callback of an aggregate runs are
read off the record of its calls.
-/

namespace Sqlite3Ruby.Errinfo

/-- An exception object. -/
structure ExceptionObject where
  id : Nat
  exception : RubyException
  deriving DecidableEq

/-- Raising writes the cell, and a `rescue` clears it. -/
inductive Change
  | raise (e : ExceptionObject)
  | rescue
  deriving DecidableEq

/-- What a change leaves in the cell. -/
def Change.errinfo : Change → Option ExceptionObject
  | raise e => some e
  | rescue => none

/-- A piece of Ruby code: the exceptions that it raises and rescues itself, and the one it
raises to its caller. -/
structure Trace where
  rescued : List ExceptionObject
  raised : Option ExceptionObject
  deriving DecidableEq

def Trace.changes (t : Trace) : List Change :=
  (t.rescued.flatMap fun e => [.raise e, .rescue]) ++ (t.raised.map Change.raise).toList

/-- What `rb_errinfo` is after some code, if it was `errinfo` before. -/
def errinfoAfter (errinfo : Option ExceptionObject) (traces : List Trace) :
    Option ExceptionObject :=
  (traces.flatMap Trace.changes).foldl (fun _ change => change.errinfo) errinfo

/-- The exceptions that some code raised to its callers, in order. -/
def raisedBy (traces : List Trace) : List ExceptionObject := traces.filterMap Trace.raised

/-- Code of the user that a callback runs. -/
structure UserCode (α : Type) where
  rescued : List ExceptionObject
  ending : Except ExceptionObject α

namespace UserCode

variable {α : Type}

/-- How the call ends for `rb_protect`. -/
def outcome (code : UserCode α) : Outcome α :=
  match code.ending with
  | .ok a => .ok a
  | .error e => .raise e.exception

def trace (code : UserCode α) : Trace where
  rescued := code.rescued
  raised :=
    match code.ending with
    | .ok _ => none
    | .error e => some e

end UserCode

/-! ## The callbacks of a step -/

/-- A callback of an aggregate, with what the user's code does if it is called. -/
inductive AggregateEvent
  | step (args : List SqliteValue) (new : UserCode Aggregator.HandlerId) (step : UserCode Value)
  | final (new : UserCode Aggregator.HandlerId) (finalize : UserCode Value)

namespace AggregateEvent

def groupEvent : AggregateEvent → Aggregator.GroupEvent
  | step args new code => .step args new.outcome code.outcome
  | final new code => .final new.outcome code.outcome

/-- What a call of the user's code in this callback does. -/
def trace : AggregateEvent → Aggregator.RubyCall → Trace
  | step _ new _, .new _ => new.trace
  | step _ _ code, _ => code.trace
  | final new _, .new _ => new.trace
  | final _ code, _ => code.trace

end AggregateEvent

/-- A callback that SQLite makes during a step. An exception that the extension itself
makes in it is the object `made`. -/
inductive Invocation
  | func (callable : List Value → UserCode Value) (args : List SqliteValue) (made : Nat)
  | aggregate (ctx : Aggregator.Context) (event : AggregateEvent) (made : Nat)

/-- What callbacks have done: to the aggregates, in Ruby, and the exception with which the
last of them was unwound. -/
structure Callbacks where
  system : Aggregator.System
  traces : List Trace
  unwound : Option ExceptionObject

/-- `rb_sqlite3_func_protected`, which also posts the result. -/
def funcTrace (long : SizeofLong) (callable : List Value → UserCode Value)
    (args : List SqliteValue) (made : Nat) : Trace :=
  let code := callable (args.map sqlite3val2rb)
  match code.ending with
  | .error _ => code.trace
  | .ok result =>
      match setSqlite3FuncResult long result with
      | .raise e => ⟨code.rescued, some ⟨made, e⟩⟩
      | _ => code.trace

/-- One callback. SQLite makes none in a context after its `xFinal`. -/
def Invocation.run (long : SizeofLong) (s : Aggregator.System) : Invocation → Option Callbacks
  | func callable args made => some ⟨s, [funcTrace long callable args made], none⟩
  | aggregate ctx event made => do
      let t ← Aggregator.step long s (ctx, event.groupEvent)
      let calls := (t.mem.calls.drop s.mem.calls.length).map (·.2)
      let traces := calls.map event.trace
      match (Aggregator.callback long ctx event.groupEvent s.mem).1 with
      | .raise e => some ⟨t, traces ++ [⟨[], some ⟨made, e⟩⟩], some ⟨made, e⟩⟩
      | _ => some ⟨t, traces, none⟩

/-- The callbacks of a step. One that unwinds takes `sqlite3_step` with it. -/
def runAll (long : SizeofLong) (s : Aggregator.System) : List Invocation → Option Callbacks
  | [] => some ⟨s, [], none⟩
  | invocation :: invocations => do
      let first ← invocation.run long s
      match first.unwound with
      | some _ => some first
      | none => do
          let rest ← runAll long first.system invocations
          some { rest with traces := first.traces ++ rest.traces }

/-! ## What `step` raises -/

/-- An exception of a callback, or one for the status of `sqlite3_step`. -/
inductive Raised
  | object (e : ExceptionObject)
  | status (status : ErrorStatus) (errmsg : String)

/-- How `Statement#step` ends once SQLite is back, and what it leaves in `rb_errinfo` for a
caller that rescues what it raises. -/
structure StepEnd where
  raises : Option Raised
  errinfo : Option ExceptionObject

/-- `step`, once `sqlite3_step` is back. -/
def reraise {C : Type} (errinfo : Option ExceptionObject) (answer : Answer C) : StepEnd :=
  match errinfo with
  | some e => ⟨some (.object e), none⟩
  | none =>
      match answer with
      | .error _ status errmsg _ => ⟨some (.status status errmsg), none⟩
      | _ => ⟨none, none⟩

/-- `step`, from the call of `sqlite3_step` on. -/
def stepEnd {C : Type} (callbacks : Callbacks) (answer : Answer C) : StepEnd :=
  match callbacks.unwound with
  | some e => ⟨some (.object e), none⟩
  | none => reraise (errinfoAfter none callbacks.traces) answer

/-- The first exception that left a callback is the one that `step` raises, and there is
none left for a later step. -/
def Survives (raised : List ExceptionObject) (last : StepEnd) : Prop :=
  (match raised with
    | e :: _ => last.raises = some (.object e)
    | [] => ∀ e, last.raises ≠ some (.object e)) ∧
  last.errinfo = none

/-- The condition: after the first exception that leaves a callback, the last thing that
later code does to the cell, if it does anything, is to raise that very exception. -/
def FirstStands : List Trace → Prop
  | [] => True
  | t :: later =>
      match t.raised with
      | none => FirstStands later
      | some e => ∀ change ∈ (later.flatMap Trace.changes).getLast?, change = .raise e

/-! ## The cell -/

theorem foldl_errinfo (errinfo : Option ExceptionObject) (changes : List Change) :
    changes.foldl (fun _ change => change.errinfo) errinfo =
      (changes.getLast?.map Change.errinfo).getD errinfo := by
  induction changes using List.reverseRecOn with
  | nil => rfl
  | append_singleton changes change _ => simp

/-- The cell is what it was or what was written last. -/
theorem errinfoAfter_eq (errinfo : Option ExceptionObject) (traces : List Trace) :
    errinfoAfter errinfo traces =
      ((traces.flatMap Trace.changes).getLast?.map Change.errinfo).getD errinfo :=
  foldl_errinfo errinfo _

theorem errinfoAfter_cons (errinfo : Option ExceptionObject) (t : Trace) (traces : List Trace) :
    errinfoAfter errinfo (t :: traces) = errinfoAfter (errinfoAfter errinfo [t]) traces := by
  simp [errinfoAfter, List.foldl_append]

theorem errinfoAfter_append (errinfo : Option ExceptionObject) (traces later : List Trace) :
    errinfoAfter errinfo (traces ++ later) = errinfoAfter (errinfoAfter errinfo traces) later := by
  simp [errinfoAfter, List.foldl_append]

/-- Code that raises leaves its exception in the cell. -/
theorem errinfoAfter_raised {t : Trace} {e : ExceptionObject} (h : t.raised = some e)
    (errinfo : Option ExceptionObject) : errinfoAfter errinfo [t] = some e := by
  simp [errinfoAfter, Trace.changes, h, Change.errinfo]

/-- Code that returns leaves an empty cell empty. -/
theorem errinfoAfter_returned {t : Trace} (h : t.raised = none) : errinfoAfter none [t] = none := by
  rw [errinfoAfter_eq]
  cases hrescued : t.rescued.getLast? with
  | none =>
      rw [List.getLast?_eq_none_iff] at hrescued
      simp [Trace.changes, h, hrescued]
  | some e =>
      obtain ⟨before, hrescued⟩ := List.getLast?_eq_some_iff.mp hrescued
      simp [Trace.changes, h, hrescued, Change.errinfo]

/-- The cell holds `e` after code that began with it there unless that code last did
something else to it. -/
theorem errinfoAfter_some_iff (e : ExceptionObject) (later : List Trace) :
    errinfoAfter (some e) later = some e ↔
      ∀ change ∈ (later.flatMap Trace.changes).getLast?, change = .raise e := by
  rw [errinfoAfter_eq]
  cases (later.flatMap Trace.changes).getLast? with
  | none => simp
  | some change => cases change <;> simp [Change.errinfo]

/-- After any code the cell holds the first exception that left it, or nothing if there was
none, exactly under the condition. -/
theorem errinfoAfter_none_iff (traces : List Trace) :
    errinfoAfter none traces = (raisedBy traces).head? ↔ FirstStands traces := by
  induction traces with
  | nil => exact iff_of_true rfl trivial
  | cons t later ih =>
      rw [errinfoAfter_cons, raisedBy, FirstStands]
      cases hraised : t.raised with
      | none =>
          rw [errinfoAfter_returned hraised, List.filterMap_cons_none hraised]
          exact ih
      | some e =>
          rw [errinfoAfter_raised hraised, List.filterMap_cons_some hraised]
          exact errinfoAfter_some_iff e later

/-! ## A step -/

/-- A callback that is unwound has raised the exception that unwinds it last. -/
theorem Invocation.run_unwound {long : SizeofLong} {s : Aggregator.System}
    {invocation : Invocation} {r : Callbacks} {e : ExceptionObject}
    (h : invocation.run long s = some r) (hunwound : r.unwound = some e)
    (errinfo : Option ExceptionObject) : errinfoAfter errinfo r.traces = some e := by
  cases invocation with
  | func callable args made =>
      obtain rfl := Option.some.inj h
      cases hunwound
  | aggregate ctx event made =>
      rw [Invocation.run, Option.bind_eq_bind, Option.bind_eq_some_iff] at h
      obtain ⟨t, -, h⟩ := h
      cases hcallback : (Aggregator.callback long ctx event.groupEvent s.mem).1 with
      | raise e' =>
          simp only [hcallback] at h
          obtain rfl := Option.some.inj h
          obtain rfl := Option.some.inj hunwound
          rw [errinfoAfter_append]
          exact errinfoAfter_raised rfl _
      | ok u =>
          simp only [hcallback] at h
          obtain rfl := Option.some.inj h
          cases hunwound
      | jump tag =>
          simp only [hcallback] at h
          obtain rfl := Option.some.inj h
          cases hunwound

theorem runAll_unwound {long : SizeofLong} {s : Aggregator.System} {is : List Invocation}
    {r : Callbacks} {e : ExceptionObject} (h : runAll long s is = some r)
    (hunwound : r.unwound = some e) (errinfo : Option ExceptionObject) :
    errinfoAfter errinfo r.traces = some e := by
  induction is generalizing s r errinfo with
  | nil =>
      obtain rfl := Option.some.inj h
      cases hunwound
  | cons invocation is ih =>
      rw [runAll, Option.bind_eq_bind, Option.bind_eq_some_iff] at h
      obtain ⟨first, hfirst, h⟩ := h
      cases hstop : first.unwound with
      | some e' =>
          rw [hstop] at h
          obtain rfl := Option.some.inj h
          exact Invocation.run_unwound hfirst hunwound errinfo
      | none =>
          rw [hstop] at h
          obtain ⟨rest, hrest, h⟩ := Option.bind_eq_some_iff.mp h
          obtain rfl := Option.some.inj h
          rw [errinfoAfter_append]
          exact ih hrest hunwound _

/-- `step` raises what is in the cell, however its callbacks have ended. -/
theorem stepEnd_eq {C : Type} {r : Callbacks}
    (h : ∀ e, r.unwound = some e → errinfoAfter none r.traces = some e) (answer : Answer C) :
    stepEnd r answer = reraise (errinfoAfter none r.traces) answer := by
  rw [stepEnd]
  cases hunwound : r.unwound with
  | none => rfl
  | some e => rw [h e hunwound, reraise]

/-- The exception that `step` raises is the one in the cell. -/
theorem survives_iff {C : Type} {r : Callbacks}
    (h : ∀ e, r.unwound = some e → errinfoAfter none r.traces = some e) (answer : Answer C) :
    Survives (raisedBy r.traces) (stepEnd r answer) ↔
      errinfoAfter none r.traces = (raisedBy r.traces).head? := by
  rw [stepEnd_eq h]
  unfold Survives
  cases errinfoAfter none r.traces with
  | none => cases raisedBy r.traces <;> cases answer <;> simp [reraise]
  | some e => cases raisedBy r.traces <;> simp [reraise]

/-- `step` raises the first exception that left one of its callbacks, or none if there was
none, exactly when later code leaves that exception in the cell. -/
theorem first_exception_survives_iff {C : Type} (long : SizeofLong) (s : Aggregator.System)
    (is : List Invocation) (r : Callbacks) (hrun : runAll long s is = some r)
    (answer : Answer C) :
    Survives (raisedBy r.traces) (stepEnd r answer) ↔ FirstStands r.traces :=
  (survives_iff (fun _ hunwound => runAll_unwound hrun hunwound none) answer).trans
    (errinfoAfter_none_iff r.traces)

def handler (h : Aggregator.HandlerId) : UserCode Aggregator.HandlerId := ⟨[], .ok h⟩

def stepError : ExceptionObject := ⟨1, ⟨.ArgumentError, "step"⟩⟩

/-- Two aggregates of one query. The `step` of the first raises, and that of the second goes
on like this. -/
def twoAggregates (second : UserCode Value) : List Invocation :=
  [.aggregate ⟨0, 0⟩ (.step [.integer 1] (handler 7) ⟨[], .error stepError⟩) 3,
    .aggregate ⟨1, 0⟩ (.step [.integer 1] (handler 8) second) 4,
    .aggregate ⟨0, 0⟩ (.final (handler 7) ⟨[], .ok .nil⟩) 5]

/-- What SQLite answers once a callback has posted an error. -/
def rubyExceptionOccurred : Answer Unit :=
  .error none ⟨1, Nat.one_ne_zero⟩ "Ruby Exception occurred" ()

theorem returning_survives :
    ∃ r, runAll .eight Aggregator.initial (twoAggregates ⟨[], .ok .nil⟩) = some r ∧
      Survives (raisedBy r.traces) (stepEnd r rubyExceptionOccurred) := by
  have hrun : ∃ r, runAll .eight Aggregator.initial (twoAggregates ⟨[], .ok .nil⟩) = some r ∧
      r.traces = [⟨[], none⟩, ⟨[], some stepError⟩, ⟨[], none⟩, ⟨[], none⟩] := ⟨_, rfl, rfl⟩
  obtain ⟨r, hrun, htraces⟩ := hrun
  refine ⟨r, hrun, (first_exception_survives_iff .eight _ _ r hrun _).mpr ?_⟩
  rw [htraces]
  simp [FirstStands, Trace.changes]

/-- The second aggregate raises an exception and rescues it. Then `step` raises the
placeholder. -/
theorem rescue_masks :
    ¬ ∀ r, runAll .eight Aggregator.initial
        (twoAggregates ⟨[⟨2, ⟨.TypeError, "inner"⟩⟩], .ok .nil⟩) = some r →
      Survives (raisedBy r.traces) (stepEnd r rubyExceptionOccurred) := by
  intro h
  have hraises : some (Raised.status ⟨1, Nat.one_ne_zero⟩ "Ruby Exception occurred") =
      some (.object stepError) := (h _ rfl).1
  cases hraises

/-! ## The statement afterwards -/

open Statement in
/-- What `step` raises is what the cell holds, or comes from the status. -/
theorem step_fst_eq {C : Type} {m : Machine C} (hdone : m.statement.doneP = false)
    {errinfo : Option ExceptionObject}
    (hpending : m.next.pending = errinfo.map (·.exception)) :
    (Statement.step m).1 =
      match (reraise errinfo m.next).raises with
      | some (.object e) => .raise e.exception
      | some (.status status errmsg) => check status.1 errmsg >>= fun _ => .ok (some [])
      | none => m.next.outcome := by
  rw [step_fst, hdone, if_neg Bool.false_ne_true]
  cases errinfo with
  | some e =>
      cases hnext : m.next with
      | row pending values content => rw [hnext] at hpending; cases hpending; rfl
      | done pending content => rw [hnext] at hpending; cases hpending; rfl
      | error pending status errmsg content => rw [hnext] at hpending; cases hpending; rfl
  | none =>
      cases hnext : m.next with
      | row pending values content => rfl
      | done pending content => rfl
      | error pending status errmsg content =>
          rw [hnext] at hpending
          obtain rfl : pending = none := hpending
          rfl

/-- The statement is reset: its parameters can be bound, and the next step starts from the
first row. -/
structure IsReset {C : Type} (host : Host) (m : Machine C) : Prop where
  ready : m.statement.vm.isReady = true
  notDone : m.statement.doneP = false
  binds : ∀ entry write, Statement.Writes host m.statement.program entry write →
    (Statement.bindParam host entry.1 entry.2 m).1 = .ok ()
  next : m.next = m.statement.program.answer [] m.view

theorem IsReset.of_ready {C : Type} (host : Host) {m : Machine C} (hvm : m.statement.vm = .ready)
    (hdone : m.statement.doneP = false) : IsReset host m where
  ready := by rw [hvm]; rfl
  notDone := hdone
  binds entry write hwrites := by
    have hrun := (Statement.bindParam_eq_ok_iff host).mpr ⟨write, hwrites, by rw [hvm]; rfl, rfl⟩
    exact congrArg Prod.fst hrun
  next := by rw [Machine.next, hvm]; rfl

theorem stepped_not_ready {C : Type} (m : Machine C) :
    m.stepped.statement.vm.isReady = false := by
  unfold Machine.stepped
  cases m.next <;> rfl

/-- A step that raises leaves the statement reset exactly when no callback has left an
exception pending. -/
theorem raising_step_resets_iff {C : Type} (host : Host) (m : Machine C) (e : RubyException)
    (hraise : (Statement.step m).1 = .raise e) :
    IsReset host (Statement.step m).2 ↔ m.next.pending = none := by
  have hdone : m.statement.doneP = false := by
    by_contra hdone
    rw [Statement.step_fst, if_pos (by simpa using hdone)] at hraise
    cases hraise
  rw [Statement.step_fst, hdone, if_neg Bool.false_ne_true] at hraise
  rw [Statement.step_snd, hdone, if_neg Bool.false_ne_true]
  by_cases hpending : m.next.pending = none
  · rw [if_neg (not_not.mpr hpending)]
    refine iff_of_true ?_ hpending
    -- Without a pending exception only an error status raises.
    cases hnext : m.next with
    | row pending values content =>
        rw [hnext] at hpending hraise
        obtain rfl : pending = none := hpending
        cases hraise
    | done pending content =>
        rw [hnext] at hpending hraise
        obtain rfl : pending = none := hpending
        cases hraise
    | error pending status errmsg content => exact .of_ready host rfl rfl
  · rw [if_pos hpending]
    refine iff_of_false (fun hreset => ?_) hpending
    have hready := hreset.ready
    rw [stepped_not_ready] at hready
    cases hready

/-- `select f(?)`, where the step fails, with this exception pending. -/
def failingProgram (pending : Option RubyException) : Program Nat where
  columns := ["f(?)"]
  parameterCount := 1
  parameterIndex _ := 0
  answer _ now := .error pending ⟨1, Nat.one_ne_zero⟩ "Ruby Exception occurred" now.content
  rowless h := by cases h

theorem status_resets :
    IsReset Statement.littleHost (Statement.step (Statement.prepared (failingProgram none) 0)).2 :=
  (raising_step_resets_iff Statement.littleHost (Statement.prepared (failingProgram none) 0)
    ⟨.subclass "SQLite3::SQLException" .SQLite3Exception, "Ruby Exception occurred"⟩ rfl).mpr rfl

/-- After the exception of a callback, `bind_param` is refused. -/
theorem pending_not_reset :
    ¬ ∀ e, (Statement.step (Statement.prepared (failingProgram (some stepError.exception)) 0)).1 =
        .raise e →
      IsReset Statement.littleHost
        (Statement.step (Statement.prepared (failingProgram (some stepError.exception)) 0)).2 := by
  intro h
  have hready := (h stepError.exception rfl).ready
  cases hready

end Sqlite3Ruby.Errinfo
