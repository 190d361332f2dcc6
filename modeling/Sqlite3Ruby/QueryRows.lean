import Sqlite3Ruby.DoneFlag
import Sqlite3Ruby.Query
import Sqlite3Ruby.Ruby.Loops

/-!
# Stepping through the rows

What an execution comes to, and that the loops over the rows of a statement come to
it. A `loop` differs from a `while` when a step raises a `StopIteration`.
-/

namespace Sqlite3Ruby

variable {C : Type} {α : Type}

/-- What `step` makes of an answer. -/
def Answer.outcome (answer : Answer C) : Outcome (Option (List Value)) :=
  match answer.pending, answer with
  | some e, _ => .raise e
  | none, .row _ values _ => .ok (some (values.map columnToRb))
  | none, .done _ _ => .ok none
  | none, .error _ status errmsg _ => check status.1 errmsg >>= fun _ => .ok (some [])

/-- The rows of an execution, or the exception that ends it, if it has no more than this
number of rows. -/
def Program.drain (program : Program C) (bindings : Bindings) :
    Nat → List (View C) → C → Option (Outcome (List (List Value)))
  | rounds, earlier, content =>
      let answer := program.answer earlier ⟨bindings, content⟩
      match answer.outcome, rounds with
      | .ok none, _ => some (.ok [])
      | .ok (some _), 0 => none
      | .ok (some row), rounds + 1 =>
          (program.drain bindings rounds (earlier ++ [⟨bindings, content⟩]) answer.content).map
            fun o => (row :: ·) <$> o
      | .raise e, _ => some (.raise e)
      | .jump tag, _ => some (.jump tag)

/-- What the execution that a machine is at comes to. -/
def Machine.drain (m : Machine C) (rounds : Nat) : Option (Outcome (List (List Value))) :=
  m.statement.program.drain m.statement.bindings rounds m.statement.vm.earlier m.content

/-! ## One step -/

theorem Answer.outcome_error (status : ErrorStatus) (errmsg : String) (content : C) :
    ∃ e, (Answer.error none status errmsg content).outcome = .raise e := by
  obtain ⟨e, he, -⟩ := check_errorStatus status errmsg
  exact ⟨e, by simp [outcome, pending, he]⟩

theorem Answer.outcome_eq_row {answer : Answer C} {row : List Value}
    (h : answer.outcome = .ok (some row)) :
    ∃ values content, answer = .row none values content ∧ row = values.map columnToRb := by
  cases answer with
  | row pending values content =>
      cases pending with
      | none =>
          obtain rfl : values.map columnToRb = row := Option.some.inj (Outcome.ok.inj h)
          exact ⟨values, content, rfl, rfl⟩
      | some e => cases h
  | done pending content => cases pending <;> cases h
  | error pending status errmsg content =>
      cases pending with
      | none =>
          obtain ⟨e, he⟩ := outcome_error status errmsg content
          cases he.symm.trans h
      | some e => cases h

theorem Answer.outcome_eq_none {answer : Answer C} (h : answer.outcome = .ok none) :
    ∃ content, answer = .done none content := by
  cases answer with
  | row pending values content => cases pending <;> cases h
  | done pending content =>
      cases pending with
      | none => exact ⟨content, rfl⟩
      | some e => cases h
  | error pending status errmsg content =>
      cases pending with
      | none =>
          obtain ⟨e, he⟩ := outcome_error status errmsg content
          cases he.symm.trans h
      | some e => cases h

theorem Answer.outcome_ne_jump (answer : Answer C) (tag : String) :
    answer.outcome ≠ .jump tag := by
  cases answer with
  | row pending values content => cases pending <;> simp [outcome, pending]
  | done pending content => cases pending <;> simp [outcome, pending]
  | error pending status errmsg content =>
      cases pending with
      | none =>
          obtain ⟨e, he⟩ := outcome_error status errmsg content
          simp [he]
      | some e => simp [outcome, pending]

theorem Machine.drain_last {m : Machine C} (h : m.next.outcome = .ok none) (rounds : Nat) :
    m.drain rounds = some (.ok []) := by
  rw [next, view] at h
  cases rounds <;> simp [drain, Program.drain, h]

theorem Machine.drain_raise {m : Machine C} {e : RubyException} (h : m.next.outcome = .raise e)
    (rounds : Nat) : m.drain rounds = some (.raise e) := by
  rw [next, view] at h
  cases rounds <;> simp [drain, Program.drain, h]

theorem Machine.drain_zero {m : Machine C} {row : List Value}
    (h : m.next.outcome = .ok (some row)) : m.drain 0 = none := by
  rw [next, view] at h
  simp [drain, Program.drain, h]

theorem Machine.drain_succ {m : Machine C} {row : List Value}
    (h : m.next.outcome = .ok (some row)) (rounds : Nat) :
    m.drain (rounds + 1) = (m.stepped.drain rounds).map fun o => (row :: ·) <$> o := by
  obtain ⟨values, content, hnext, rfl⟩ := Answer.outcome_eq_row h
  have hstepped : m.stepped.drain rounds =
      m.statement.program.drain m.statement.bindings rounds
        (m.statement.vm.earlier ++ [m.view]) m.next.content := by
    rw [Machine.stepped, hnext]
    rfl
  rw [hstepped]
  rw [next, view] at h
  simp [drain, Program.drain, h, next, view]

namespace Statement

theorem step_fst (m : Machine C) :
    (Statement.step m).1 = if m.statement.doneP then .ok none else m.next.outcome := by
  rw [Statement.step, RubyM.get_bind]
  cases m.statement.doneP with
  | true => rfl
  | false =>
      simp only [Bool.false_eq_true, if_false, RubyM.modify_bind]
      cases hnext : m.next with
      | row pending values content => cases pending <;> rfl
      | done pending content => cases pending <;> rfl
      | error pending status errmsg content =>
          cases pending with
          | some e => rfl
          | none =>
              obtain ⟨e, he, -⟩ := check_errorStatus status errmsg
              simp [Answer.outcome, Answer.pending, he]

theorem step_done {m : Machine C} (hdone : m.statement.doneP = true) :
    Statement.step m = (.ok none, m) := by
  refine Prod.ext ?_ ?_
  · rw [step_fst, if_pos hdone]
  · rw [step_snd, if_pos hdone]

theorem step_row {m : Machine C} (hdone : m.statement.doneP = false) {row : List Value}
    (h : m.next.outcome = .ok (some row)) : Statement.step m = (.ok (some row), m.stepped) := by
  obtain ⟨values, content, hnext, -⟩ := Answer.outcome_eq_row h
  refine Prod.ext ?_ ?_
  · rw [step_fst, hdone, if_neg Bool.false_ne_true, h]
  · simp [step_snd, hdone, hnext, Answer.pending, Answer.isDone, Answer.isRow]

theorem step_last {m : Machine C} (hdone : m.statement.doneP = false)
    (h : m.next.outcome = .ok none) :
    Statement.step m = (.ok none, m.stepped.setDoneP true) := by
  obtain ⟨content, hnext⟩ := Answer.outcome_eq_none h
  refine Prod.ext ?_ ?_
  · rw [step_fst, hdone, if_neg Bool.false_ne_true, h]
  · simp [step_snd, hdone, hnext, Answer.pending, Answer.isDone]

theorem step_raise {m : Machine C} (hdone : m.statement.doneP = false) {e : RubyException}
    (h : m.next.outcome = .raise e) : (Statement.step m).1 = .raise e := by
  rw [step_fst, hdone, if_neg Bool.false_ne_true, h]

/-- A step returns a row exactly when the statement is not done after it. -/
theorem step_isSome {m m' : Machine C} {row : Option (List Value)}
    (h : Statement.step m = (.ok row, m')) : row.isSome = !m'.statement.doneP := by
  cases hdone : m.statement.doneP with
  | true =>
      rw [step_done hdone] at h
      obtain ⟨hrow, rfl⟩ := Prod.mk.inj h
      rw [← Outcome.ok.inj hrow, hdone]
      rfl
  | false =>
      cases hnext : m.next.outcome with
      | ok row' =>
          cases row' with
          | none =>
              rw [step_last hdone hnext] at h
              obtain ⟨hrow, rfl⟩ := Prod.mk.inj h
              rw [← Outcome.ok.inj hrow]
              rfl
          | some values =>
              rw [step_row hdone hnext] at h
              obtain ⟨hrow, rfl⟩ := Prod.mk.inj h
              rw [← Outcome.ok.inj hrow, stepped_doneP, hdone]
              rfl
      | raise e =>
          have hraise := step_raise hdone hnext
          rw [h] at hraise
          cases hraise
      | jump tag => exact absurd hnext (Answer.outcome_ne_jump _ tag)

theorem stepped_row {m : Machine C} {row : List Value} (h : m.next.outcome = .ok (some row)) :
    m.stepped.statement.vm.isActive = true ∧
      m.stepped.events = m.events ++ if m.statement.vm.isActive then [] else [.started] := by
  obtain ⟨values, content, hnext, -⟩ := Answer.outcome_eq_row h
  rw [Machine.stepped, hnext]
  exact ⟨rfl, rfl⟩

theorem stepped_last {m : Machine C} (h : m.next.outcome = .ok none) :
    m.stepped.events =
      m.events ++ (if m.statement.vm.isActive then [] else [.started]) ++ [.completed] := by
  obtain ⟨content, hnext⟩ := Answer.outcome_eq_none h
  rw [Machine.stepped, hnext, List.append_assoc]
  rfl

theorem stepped_program (m : Machine C) : m.stepped.statement.program = m.statement.program := by
  unfold Machine.stepped
  cases m.next <;> rfl

theorem stepped_bindings (m : Machine C) :
    m.stepped.statement.bindings = m.statement.bindings := by
  unfold Machine.stepped
  cases m.next <;> rfl

theorem step_program (m : Machine C) :
    (Statement.step m).2.statement.program = m.statement.program := by
  rw [step_snd]
  split
  · rfl
  · split
    · exact stepped_program m
    · split
      · exact stepped_program m
      · split
        · exact stepped_program m
        · exact stepped_program m

end Statement

namespace Query

/-- How a call ends. -/
def result (call : QueryM C α) (db : Database C) (rounds : Nat) : Option (Outcome α) :=
  (call rounds db).map (·.1)

/-! ## What is handed out -/

/-- `next` steps the statement and hands out its row through `g`. -/
def HandsOut (stmt : Prepared) (columns : List String) (next : QueryM C (Option α))
    (g : List Value → α) : Prop :=
  ∀ rounds db s, db.statement stmt.id = some s → s.program.columns = columns →
    next rounds db =
      some (Option.map g <$> (Statement.step (db.machine s)).1,
        db.put stmt.id (Statement.step (db.machine s)).2)

theorem stepped_content (m : Machine C) : m.stepped.content = m.next.content := by
  rw [Machine.stepped]
  cases m.next <;> rfl

theorem step_run {stmt : Prepared} {db : Database C} {s : Statement C}
    (h : db.statement stmt.id = some s) (rounds : Nat) :
    step stmt rounds db =
      some ((Statement.step (db.machine s)).1, db.put stmt.id (Statement.step (db.machine s)).2) :=
  onStatement_run h _ rounds

theorem done_run {stmt : Prepared} {db : Database C} {s : Statement C}
    (h : db.statement stmt.id = some s) (rounds : Nat) :
    done stmt rounds db = some (.ok s.doneP, db) :=
  onStatement_read h (·.statement.doneP) rounds

theorem columns_run {stmt : Prepared} {db : Database C} {s : Statement C}
    (h : db.statement stmt.id = some s) (rounds : Nat) :
    columns stmt rounds db = some (.ok s.program.columns, db) :=
  onStatement_read h (·.statement.program.columns) rounds

theorem nextValues_handsOut (stmt : Prepared) (columns : List String) :
    HandsOut (C := C) stmt columns (nextValues stmt) id := by
  intro rounds db s h _
  rw [nextValues]
  have hrun := step_run h rounds
  rcases hstep : Statement.step (db.machine s) with ⟨o, m'⟩
  rw [hstep] at hrun
  cases o with
  | raise e => rw [CallM.bind_run_raise _ hrun]; rfl
  | jump tag => rw [CallM.bind_run_jump _ hrun]; rfl
  | ok row =>
      have hdone := Statement.step_isSome hstep
      rw [CallM.bind_run_ok _ _ hrun,
        CallM.bind_run_ok _ _ (done_run (Database.statement_put h m') rounds)]
      cases row with
      | none =>
          rw [if_pos (by simpa using hdone.symm)]
          rfl
      | some values =>
          rw [if_neg (by simpa using hdone.symm)]
          rfl

/-- The row a result set makes of what a statement steps to. -/
def ResultSet.row (rs : ResultSet) (columns : List String) (values : List Value) : Row :=
  if rs.isHash then .hash (zipToH columns values) else .array values

theorem next_handsOut (rs : ResultSet) (columns : List String) :
    HandsOut (C := C) rs.stmt columns rs.next (rs.row columns) := by
  intro rounds db s h hcolumns
  have hrun := step_run h rounds
  rcases hstep : Statement.step (db.machine s) with ⟨o, m'⟩
  rw [hstep] at hrun
  rw [ResultSet.next]
  cases hhash : rs.isHash with
  | false =>
      rw [if_neg Bool.false_ne_true]
      cases o with
      | raise e => rw [CallM.bind_run_raise _ hrun]; rfl
      | jump tag => rw [CallM.bind_run_jump _ hrun]; rfl
      | ok row =>
          rw [CallM.bind_run_ok _ _ hrun]
          cases row <;> simp [ResultSet.row, hhash]
  | true =>
      rw [if_pos rfl, nextHash]
      cases o with
      | raise e => rw [CallM.bind_run_raise _ hrun]; rfl
      | jump tag => rw [CallM.bind_run_jump _ hrun]; rfl
      | ok row =>
          have hdone := Statement.step_isSome hstep
          have hput := Database.statement_put h m'
          rw [CallM.bind_run_ok _ _ hrun, CallM.bind_run_ok _ _ (done_run hput rounds)]
          cases row with
          | none =>
              rw [if_pos (by simpa using hdone.symm)]
              rfl
          | some values =>
              have hprogram : m'.statement.program.columns = columns := by
                have hsame := Statement.step_program (db.machine s)
                rw [hstep] at hsame
                rw [hsame]
                exact hcolumns
              rw [if_neg (by simpa using hdone.symm),
                CallM.bind_run_ok _ _ (columns_run hput rounds), hprogram]
              simp [ResultSet.row, hhash]

/-! ## The loops -/

variable {stmt : Prepared} {columns : List String} {next : QueryM C (Option α)}
  {g : List Value → α}

theorem stepped_keeps (m : Machine C) (hcolumns : m.statement.program.columns = columns)
    (hdone : m.statement.doneP = false) :
    m.stepped.statement.program.columns = columns ∧ m.stepped.statement.doneP = false :=
  ⟨(congrArg (·.columns) (Statement.stepped_program m)).trans hcolumns,
    (Statement.stepped_doneP m).trans hdone⟩

/-- The ways a loop can go on from a statement that is not done. -/
theorem HandsOut.cases (hnext : HandsOut stmt columns next g) (rounds : Nat) {db : Database C}
    {s : Statement C} (h : db.statement stmt.id = some s) (hcolumns : s.program.columns = columns)
    (hdone : s.doneP = false) :
    ((db.machine s).next.outcome = .ok none ∧
        next rounds db = some (.ok none, db.put stmt.id ((db.machine s).stepped.setDoneP true))) ∨
      (∃ row, (db.machine s).next.outcome = .ok (some row) ∧
        next rounds db = some (.ok (some (g row)), db.put stmt.id (db.machine s).stepped)) ∨
      ∃ e db', (db.machine s).next.outcome = .raise e ∧ next rounds db = some (.raise e, db') := by
  have hrun := hnext rounds db s h hcolumns
  cases hanswer : (db.machine s).next.outcome with
  | ok row =>
      cases row with
      | none =>
          rw [Statement.step_last hdone hanswer] at hrun
          exact Or.inl ⟨rfl, hrun⟩
      | some row =>
          rw [Statement.step_row hdone hanswer] at hrun
          exact Or.inr (Or.inl ⟨row, rfl, hrun⟩)
  | raise e =>
      rw [Statement.step_raise hdone hanswer] at hrun
      exact Or.inr (Or.inr ⟨e, _, rfl, hrun⟩)
  | jump tag => exact absurd hanswer (Answer.outcome_ne_jump _ tag)

/-- The ways a loop that collects the rows goes: to the end of the execution, to the exception
that ends it, or on for more rounds. To its end, the machine is started, if it is not running, and
runs to `SQLITE_DONE`. -/
theorem course_cases (hnext : HandsOut stmt columns next g) (limit rounds : Nat)
    (rows : List α) {db : Database C} {s : Statement C} (h : db.statement stmt.id = some s)
    (hcolumns : s.program.columns = columns) (hdone : s.doneP = false) :
    (∃ rest db', (db.machine s).drain limit = some (.ok rest) ∧
        CallM.Course next pushRow rounds limit rows db (rest.map g) (.last (rows ++ rest.map g)) db' ∧
        db'.events = db.events ++ (if s.vm.isActive then [] else [.started]) ++ [.completed]) ∨
      (∃ e handed rows' db', (db.machine s).drain limit = some (.raise e) ∧
        CallM.Course next pushRow rounds limit rows db handed (.raise rows' e) db') ∨
      ((db.machine s).drain limit = none ∧
        CallM.whileRounds next pushRow limit rows rounds db = none ∧
        CallM.loopRounds next pushRow limit rows rounds db = none) := by
  rcases hnext.cases rounds h hcolumns hdone with
    ⟨hanswer, hrun⟩ | ⟨row, hanswer, hrun⟩ | ⟨e, db', hanswer, hrun⟩
  · refine Or.inl ⟨[], db.put stmt.id ((db.machine s).stepped.setDoneP true),
      Machine.drain_last hanswer limit, ?_, Statement.stepped_last hanswer⟩
    rw [List.map_nil, List.append_nil]
    exact .last hrun
  · cases limit with
    | zero =>
        exact Or.inr (Or.inr ⟨Machine.drain_zero hanswer, CallM.whileRounds_zero hrun rows,
          CallM.loopRounds_zero hrun rows⟩)
    | succ limit =>
        have hput := Database.statement_put h (db.machine s).stepped
        obtain ⟨hcolumns', hdone'⟩ := stepped_keeps (db.machine s) hcolumns hdone
        have hpush : pushRow rows (g row) rounds (db.put stmt.id (db.machine s).stepped) =
            some (.ok (rows ++ [g row]), db.put stmt.id (db.machine s).stepped) := rfl
        rw [Machine.drain_succ hanswer]
        rcases course_cases hnext limit rounds (rows ++ [g row]) hput hcolumns' hdone' with
          ⟨rest, db', hdrain, hcourse, hevents⟩ | ⟨e, handed, rows', db', hdrain, hcourse⟩ |
          ⟨hdrain, hwhile, hloop⟩
        · have hdrain' : (db.machine s).stepped.drain limit = some (.ok rest) := hdrain
          obtain ⟨hactive, hstarted⟩ := Statement.stepped_row hanswer
          refine Or.inl ⟨row :: rest, db', by rw [hdrain']; rfl, ?_, ?_⟩
          · rw [List.map_cons, List.append_cons]
            exact .round hrun hpush hcourse
          · rw [hevents, if_pos hactive, List.append_nil]
            exact congrArg (· ++ [VmEvent.completed]) hstarted
        · have hdrain' : (db.machine s).stepped.drain limit = some (.raise e) := hdrain
          refine Or.inr (Or.inl ⟨e, g row :: handed, rows', db', by rw [hdrain']; rfl, ?_⟩)
          exact .round hrun hpush hcourse
        · have hdrain' : (db.machine s).stepped.drain limit = none := hdrain
          refine Or.inr (Or.inr ⟨by rw [hdrain']; rfl, ?_, ?_⟩)
          · rw [CallM.whileRounds_succ hrun, CallM.bind_run_ok _ _ hpush]
            exact hwhile
          · rw [CallM.loopRounds_succ hrun, CallM.unlessStop_ok _ _ hpush]
            exact hloop
  · exact Or.inr (Or.inl ⟨e, [], rows, db', Machine.drain_raise hanswer limit, .nextRaise hrun⟩)

/-- A loop over the rows comes to what the execution comes to. -/
theorem whileRounds_result (hnext : HandsOut stmt columns next g) (limit rounds : Nat)
    (rows : List α) {db : Database C} {s : Statement C} (h : db.statement stmt.id = some s)
    (hcolumns : s.program.columns = columns) (hdone : s.doneP = false) :
    (CallM.whileRounds next pushRow limit rows rounds db).map (·.1) =
      ((db.machine s).drain limit).map fun o => (fun rest => rows ++ rest.map g) <$> o := by
  rcases course_cases hnext limit rounds rows h hcolumns hdone with
    ⟨rest, db', hdrain, hcourse, -⟩ | ⟨e, handed, rows', db', hdrain, hcourse⟩ |
    ⟨hdrain, hwhile, -⟩
  · rw [hdrain, hcourse.whileRounds]
    rfl
  · rw [hdrain, hcourse.whileRounds]
    rfl
  · rw [hdrain, hwhile]
    rfl

/-- The machine is started, if it is not running, and runs to `SQLITE_DONE`. -/
theorem whileRounds_events (hnext : HandsOut stmt columns next g) (limit rounds : Nat)
    (rows : List α) {db db' : Database C} {s : Statement C} (h : db.statement stmt.id = some s)
    (hcolumns : s.program.columns = columns) (hdone : s.doneP = false) {rows' : List α}
    (hend : CallM.whileRounds next pushRow limit rows rounds db = some (.ok rows', db')) :
    db'.events =
      db.events ++ (if s.vm.isActive then [] else [.started]) ++ [.completed] := by
  rcases course_cases hnext limit rounds rows h hcolumns hdone with
    ⟨rest, db'', -, hcourse, hevents⟩ | ⟨e, handed, rows'', db'', -, hcourse⟩ | ⟨-, hwhile, -⟩
  · rw [hcourse.whileRounds] at hend
    obtain ⟨-, rfl⟩ := Prod.mk.inj (Option.some.inj hend)
    exact hevents
  · rw [hcourse.whileRounds] at hend
    cases hend
  · rw [hwhile] at hend
    cases hend

/-- Without a `StopIteration`, a `loop` is a `while`. -/
theorem loopRounds_eq (hnext : HandsOut stmt columns next g) (limit rounds : Nat)
    (rows : List α) {db : Database C} {s : Statement C} (h : db.statement stmt.id = some s)
    (hcolumns : s.program.columns = columns) (hdone : s.doneP = false)
    (hstop : ∀ e, (db.machine s).drain limit = some (.raise e) → e.isStopIteration = false) :
    CallM.loopRounds next pushRow limit rows rounds db =
      CallM.whileRounds next pushRow limit rows rounds db := by
  rcases course_cases hnext limit rounds rows h hcolumns hdone with
    ⟨rest, db', -, hcourse, -⟩ | ⟨e, handed, rows', db', hdrain, hcourse⟩ | ⟨-, hwhile, hloop⟩
  · rw [hcourse.loopRounds, hcourse.whileRounds]
    rfl
  · rw [hcourse.loopRounds, hcourse.whileRounds, CallM.LoopExit.loopOutcome,
      if_neg (by simp [hstop e hdrain])]
    rfl
  · rw [hloop, hwhile]

/-- A `StopIteration` ends a `loop` as the last row does. -/
theorem loopRounds_stop (hnext : HandsOut stmt columns next g) (limit rounds : Nat)
    (rows : List α) {db : Database C} {s : Statement C} (h : db.statement stmt.id = some s)
    (hcolumns : s.program.columns = columns) (hdone : s.doneP = false) {e : RubyException}
    (hdrain : (db.machine s).drain limit = some (.raise e)) (hstop : e.isStopIteration = true) :
    ∃ rows' db', CallM.loopRounds next pushRow limit rows rounds db = some (.ok rows', db') := by
  rcases course_cases hnext limit rounds rows h hcolumns hdone with
    ⟨rest, db', hdrain', -, -⟩ | ⟨e', handed, rows', db', hdrain', hcourse⟩ | ⟨hdrain', -, -⟩
  · cases hdrain.symm.trans hdrain'
  · obtain rfl := Outcome.raise.inj (Option.some.inj (hdrain.symm.trans hdrain'))
    refine ⟨rows', db', ?_⟩
    rw [hcourse.loopRounds, CallM.LoopExit.loopOutcome, if_pos hstop]
  · cases hdrain.symm.trans hdrain'

/-- The call steps a statement to its end and makes `f` of the rows, as long as the
execution raises only exceptions with `P`. -/
structure Collects (stmt : Prepared) (columns : List String) (P : RubyException → Prop)
    (call : QueryM C α) (f : List (List Value) → α) : Prop where
  result : ∀ (rounds : Nat) (db : Database C) (s : Statement C),
    db.statement stmt.id = some s → s.program.columns = columns → s.doneP = false →
    (∀ e, (db.machine s).drain rounds = some (.raise e) → P e) →
    result call db rounds = ((db.machine s).drain rounds).map (f <$> ·)
  events : ∀ (rounds : Nat) (db : Database C) (s : Statement C) (a : α) (db' : Database C),
    db.statement stmt.id = some s → s.program.columns = columns → s.doneP = false →
    (∀ e, (db.machine s).drain rounds = some (.raise e) → P e) →
    call rounds db = some (.ok a, db') →
    db'.events = db.events ++ (if s.vm.isActive then [] else [.started]) ++ [.completed]
  done : ∀ (rounds : Nat) (db : Database C) (s : Statement C),
    db.statement stmt.id = some s → s.program.columns = columns → s.doneP = true →
    call rounds db = some (.ok (f []), db)

theorem HandsOut.done (hnext : HandsOut stmt columns next g) (rounds : Nat) {db : Database C}
    {s : Statement C} (h : db.statement stmt.id = some s) (hcolumns : s.program.columns = columns)
    (hdone : s.doneP = true) : next rounds db = some (.ok none, db) := by
  have hrun := hnext rounds db s h hcolumns
  rw [Statement.step_done hdone] at hrun
  rw [hrun, Database.put_machine h]
  rfl

theorem collects_while (hnext : HandsOut stmt columns next g) (rows : List α) :
    Collects stmt columns (fun _ => True) (CallM.whileSome next pushRow rows)
      (fun rest => rows ++ rest.map g) where
  result rounds _ _ h hcolumns hdone _ :=
    whileRounds_result hnext rounds rounds rows h hcolumns hdone
  events rounds _ _ _ _ h hcolumns hdone _ hend :=
    whileRounds_events hnext rounds rounds rows h hcolumns hdone hend
  done rounds db s h hcolumns hdone := by
    rw [CallM.whileSome, CallM.whileRounds_none (hnext.done rounds h hcolumns hdone)]
    simp

theorem collects_loop (hnext : HandsOut stmt columns next g) (rows : List α) :
    Collects stmt columns (·.isStopIteration = false) (CallM.loopSome next pushRow rows)
      (fun rest => rows ++ rest.map g) where
  result rounds db s h hcolumns hdone hstop := by
    rw [Query.result, CallM.loopSome, loopRounds_eq hnext rounds rounds rows h hcolumns hdone hstop]
    exact whileRounds_result hnext rounds rounds rows h hcolumns hdone
  events rounds db s rows' db' h hcolumns hdone hstop hend := by
    rw [CallM.loopSome, loopRounds_eq hnext rounds rounds rows h hcolumns hdone hstop] at hend
    exact whileRounds_events hnext rounds rounds rows h hcolumns hdone hend
  done rounds db s h hcolumns hdone := by
    rw [CallM.loopSome, CallM.loopRounds_none (hnext.done rounds h hcolumns hdone)]
    simp

end Query

/-! ## Binding does not look at the record -/

def Machine.withEvents (events : List VmEvent) (m : Machine C) : Machine C :=
  { m with events := events }

namespace Statement

variable (host : Host)

theorem sqlite3Bind_commutes (events : List VmEvent) (index : Int) (stored : Stored) :
    RubyM.Commutes (Machine.withEvents (C := C) events) (sqlite3Bind index stored) := by
  intro m
  change (if (!m.statement.vm.isReady) = true then _ else _) = _
  unfold sqlite3Bind
  by_cases hready : (!m.statement.vm.isReady) = true
  · rw [if_pos hready, if_pos hready]
  · rw [if_neg hready, if_neg hready]
    by_cases hindex : index < 1 ∨ (m.statement.program.parameterCount : Int) < index
    · rw [if_pos hindex]
      exact if_pos hindex
    · rw [if_neg hindex]
      exact if_neg hindex

theorem bindParam_commutes (events : List VmEvent) (key : ParamKey) (value : Value) :
    RubyM.Commutes (Machine.withEvents (C := C) events) (bindParam host key value) := by
  intro m
  rw [bindParam, RubyM.get_bind, RubyM.get_bind]
  refine RubyM.Commutes.bind (RubyM.commutes_lift (Machine.withEvents events)
    (key.index m.statement.program)) (fun index => ?_) m
  split
  · exact RubyM.commutes_lift _ _
  · refine (RubyM.commutes_lift _ _).bind fun call => ?_
    exact (sqlite3Bind_commutes events _ _).bind fun status => RubyM.commutes_lift _ _

theorem bindEntries_commutes (events : List VmEvent) (entries : List (ParamKey × Value)) :
    RubyM.Commutes (Machine.withEvents (C := C) events) (bindEntries host entries) := by
  induction entries with
  | nil => exact RubyM.commutes_pure _ ()
  | cons entry entries ih => exact (bindParam_commutes host events _ _).bind fun _ => ih

theorem bindEach_commutes (events : List VmEvent) (index : Int) (vars : List FlatVar) :
    RubyM.Commutes (Machine.withEvents (C := C) events) (bindEach host index vars) := by
  induction vars generalizing index with
  | nil => exact RubyM.commutes_pure _ ()
  | cons var vars ih =>
      cases var with
      | hash entries => exact (bindEntries_commutes host events entries).bind fun _ => ih index
      | value v => exact (bindParam_commutes host events _ v).bind fun _ => ih (index + 1)

end Statement

end Sqlite3Ruby
