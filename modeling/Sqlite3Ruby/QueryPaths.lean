import Sqlite3Ruby.QueryRows

/-!
# One query on every path

The methods that run a query step the same statement with loops of their own. Each
comes to what the execution of the statement comes to, but for `Statement#each`: its
`loop` takes a `StopIteration` that a step raises for the end of the rows.
-/

namespace Sqlite3Ruby

variable {C : Type} {α : Type}

/-- No step of the execution raises a `StopIteration`. -/
def Program.NeverStops (program : Program C) (bindings : Bindings) (content : C) : Prop :=
  ∀ rounds e, program.drain bindings rounds [] content = some (.raise e) →
    e.isStopIteration = false

namespace Query

/-- The ways to run a query. -/
inductive Path
  | execute
  | executeBlock
  | execute2
  | query
  | statementExecute
  | executeBang
  | each
  deriving DecidableEq

/-- The path goes through a result set, so that `results_as_hash` counts. -/
def Path.hasResultSet : Path → Bool
  | executeBang | each => false
  | _ => true

/-- The rows of a query on a path; those of `execute2` without the header. -/
def Path.run (host : Host) (compile : List UInt8 → C → Compiled C) (sql : RString)
    (vars : List BindVar) : Path → QueryM C (List Row)
  | execute => Query.execute host compile sql (.array vars)
  | executeBlock => Query.executeBlock host compile sql (.array vars) pushRow []
  | execute2 => do
      let rows ← Query.execute2 host compile sql vars
      pure rows.tail
  | query => do
      let rs ← Query.query host compile sql (.array vars)
      rs.toA
  | statementExecute => do
      let stmt ← prepare host compile sql
      let rs ← Query.statementExecute host stmt vars
      rs.toA
  | executeBang => do
      let stmt ← prepare host compile sql
      let rows ← Query.executeBang host stmt vars
      pure (rows.map .array)
  | each => do
      let stmt ← prepare host compile sql
      bindParams host stmt vars
      let rows ← statementEach stmt pushRow []
      pure (rows.map .array)

/-- Resets aside, the machine was started once and ran to `SQLITE_DONE`. -/
def RanOnce (db db' : Database C) : Prop :=
  ∃ events, db'.events = db.events ++ events ∧
    events.filter (· ≠ .reset) = [.started, .completed]

/-- The text compiles to a statement. -/
def Compiles (host : Host) (compile : List UInt8 → C → Compiled C) (db : Database C)
    (sql : RString) (program : Program C) : Prop :=
  db.isOpen = true ∧ ∃ text tail, strEncodeUtf8 host sql = .ok text ∧
    compile (sqlRead text) db.content = .statement program tail

/-- All the paths hand out the same rows or raise the same exception, and run the
statement once. -/
structure Agree (host : Host) (compile : List UInt8 → C → Compiled C) (db : Database C)
    (sql : RString) (vars : List BindVar) (program : Program C) : Prop where
  rows : ∀ path : Path, path.hasResultSet = true ∨ db.resultsAsHash = false → ∀ rounds,
    result (path.run host compile sql vars) db rounds =
      result (Path.execute.run host compile sql vars) db rounds
  errors : ∀ (path : Path) (rounds : Nat) (e : RubyException),
    result (path.run host compile sql vars) db rounds = some (.raise e) ↔
      result (Path.execute.run host compile sql vars) db rounds = some (.raise e)
  header : ∀ (rounds : Nat) (rows : List Row),
    result (execute2 host compile sql vars) db rounds = some (.ok rows) →
      rows.head? = some (.header program.columns)
  once : ∀ (path : Path) (rounds : Nat) (rows : List Row) (db' : Database C),
    path.run host compile sql vars rounds db = some (.ok rows, db') → RanOnce db db'

/-! ## After the parameters are bound -/

/-- What the rest of a query comes to, once `bind_params` has ended. -/
def comesTo (bound : Outcome Unit × Machine C) (rounds : Nat) :
    Option (Outcome (List (List Value))) :=
  match bound with
  | (.ok _, m) => m.drain rounds
  | (.raise e, _) => some (.raise e)
  | (.jump tag, _) => some (.jump tag)

/-- The call ends as the query does, with `f` of its rows, and runs the statement once. -/
structure Runs (call : QueryM C α) (db : Database C) (rounds : Nat)
    (outcome : Option (Outcome (List (List Value)))) (f : List (List Value) → α) : Prop where
  result : result call db rounds = outcome.map (f <$> ·)
  once : ∀ a db', call rounds db = some (.ok a, db') → RanOnce db db'

variable {host : Host} {stmt : Prepared} {program : Program C} {P : RubyException → Prop}
  {f : List (List Value) → α} {vars : List BindVar} {rounds : Nat} {db : Database C}

theorem bindParams_run (host : Host) (vars : List BindVar) (rounds : Nat) {s : Statement C}
    (h : db.statement stmt.id = some s) :
    bindParams host stmt vars rounds db =
      some ((Statement.bindParams host vars (db.machine s)).1,
        db.put stmt.id (Statement.bindParams host vars (db.machine s)).2) := by
  rw [bindParams, CallM.get_bind, h, if_neg (by simp)]
  exact onStatement_run h _ rounds

theorem bound_same {m m' : Machine C} {o : Outcome Unit}
    (h : Statement.bindParams host vars m = (o, m')) : Statement.SameButBindings m m' := by
  have hsame := Statement.bindEach_same host 1 (flattenAll vars) m
  rwa [show Statement.bindEach host 1 (flattenAll vars) m = (o, m') from h] at hsame

theorem runs_raise {call : QueryM C α} {e : RubyException} {db' : Database C}
    (h : call rounds db = some (.raise e, db')) : Runs call db rounds (some (.raise e)) f := by
  refine ⟨?_, fun a db'' hend => ?_⟩
  · rw [result, h]
    rfl
  · rw [h] at hend
    cases hend

theorem runs_jump {call : QueryM C α} {tag : String} {db' : Database C}
    (h : call rounds db = some (.jump tag, db')) : Runs call db rounds (some (.jump tag)) f := by
  refine ⟨?_, fun a db'' hend => ?_⟩
  · rw [result, h]
    rfl
  · rw [h] at hend
    cases hend

/-- A new statement that is bound and then stepped through. -/
theorem runs_bound (host : Host) (vars : List BindVar) (rounds : Nat) {call : QueryM C α}
    (hc : Collects stmt program.columns P call f)
    (h : db.statement stmt.id = some { program })
    (hP : ∀ m e, Statement.bindParams host vars (db.machine { program }) = (.ok (), m) →
      m.drain rounds = some (.raise e) → P e) :
    Runs (bindParams host stmt vars >>= fun _ => call) db rounds
      (comesTo (Statement.bindParams host vars (db.machine { program })) rounds) f := by
  have hrun := bindParams_run host vars rounds h
  rcases hbound : Statement.bindParams host vars (db.machine { program }) with ⟨o, m⟩
  rw [hbound] at hrun hP
  cases o with
  | ok _ =>
      obtain ⟨bindings, hsame⟩ := bound_same hbound
      have hput := Database.statement_put h m
      have hcolumns : m.statement.program.columns = program.columns := by rw [hsame]; rfl
      have hdone : m.statement.doneP = false := by rw [hsame]; rfl
      refine ⟨?_, fun a db' hend => ?_⟩
      · rw [result, CallM.bind_run_ok _ _ hrun]
        exact hc.result rounds _ _ hput hcolumns hdone (hP m · rfl)
      · rw [CallM.bind_run_ok _ _ hrun] at hend
        have hevents := hc.events rounds _ _ a db' hput hcolumns hdone (hP m · rfl) hend
        refine ⟨[.started, .completed], ?_, rfl⟩
        rw [hevents, hsame]
        simp [Database.put, Database.machine, Machine.setBindings, Vm.isActive]
  | raise e => exact runs_raise (CallM.bind_run_raise _ hrun)
  | jump tag => exact runs_jump (CallM.bind_run_jump _ hrun)

/-- `execute` of a new statement resets it and binds; one without columns is stepped. -/
theorem execute_fresh {o : Outcome Unit} {m : Machine C}
    (h : Statement.bindParams host vars (db.machine { program }) = (o, m)) :
    Statement.execute host vars (db.machine { program }) =
      ((RubyM.lift o : StatementM C Unit) >>= fun _ =>
        if program.columns.isEmpty then do
          let _ ← Statement.step
          pure ()
        else pure ()) (m.withEvents (db.events ++ [.reset])) := by
  have hbound : Statement.bindParams host vars
      ((db.machine { program }).withEvents (db.events ++ [.reset])) =
        (o, m.withEvents (db.events ++ [.reset])) := by
    have hcommutes := Statement.bindEach_commutes host (db.events ++ [.reset]) 1 (flattenAll vars)
      (db.machine { program })
    rwa [show Statement.bindEach host 1 (flattenAll vars) (db.machine { program }) = (o, m) from h]
      at hcommutes
  rw [Statement.execute_eq]
  change (Statement.bindParams host vars >>= _)
    ((db.machine { program }).withEvents (db.events ++ [.reset])) = _
  cases o with
  | ok _ => rw [RubyM.bind_run_ok () _ hbound, RubyM.lift_ok_bind]; rfl
  | raise e => rw [RubyM.bind_run_raise _ hbound, RubyM.lift_raise_bind]
  | jump tag => rw [RubyM.bind_run_jump _ hbound, RubyM.lift_jump_bind]

/-- A step of a statement without columns ends it or raises. -/
theorem rowless_cases {m : Machine C} (hcolumns : m.statement.program.columns = []) :
    m.next.outcome = .ok none ∨ ∃ e, m.next.outcome = .raise e := by
  cases hanswer : m.next.outcome with
  | ok row =>
      cases row with
      | none => exact Or.inl rfl
      | some row =>
          obtain ⟨values, content, hnext, -⟩ := Answer.outcome_eq_row hanswer
          have hrowless := m.statement.program.rowless hcolumns m.statement.vm.earlier m.view
          rw [show m.statement.program.answer m.statement.vm.earlier m.view = m.next from rfl,
            hnext] at hrowless
          cases hrowless
  | raise e => exact Or.inr ⟨e, rfl⟩
  | jump tag => exact absurd hanswer (Answer.outcome_ne_jump _ tag)

theorem executed_run {m : Machine C}
    (hrun : onStatement stmt (Statement.execute host vars) rounds db =
      some (.ok (), db.put stmt.id m)) (call : ResultSet → QueryM C α) :
    (statementExecute host stmt vars >>= call) rounds db =
      call ⟨stmt, db.resultsAsHash⟩ rounds (db.put stmt.id m) := by
  rw [statementExecute, CallM.bind_assoc, CallM.bind_run_ok () _ hrun]
  rfl

/-- A new statement that is reset and bound, with the reset in its record. -/
def boundStatement (db : Database C) (program : Program C) (bindings : Bindings) :
    Machine C :=
  ((db.machine { program }).setBindings bindings).withEvents (db.events ++ [.reset])

/-- A statement without columns is stepped by `execute` itself. -/
theorem runs_rowless {call : ResultSet → QueryM C α} {bindings : Bindings}
    (hc : Collects stmt program.columns P (call ⟨stmt, db.resultsAsHash⟩) f)
    (h : db.statement stmt.id = some { program }) (hcolumns : program.columns = [])
    (hrun : onStatement stmt (Statement.execute host vars) rounds db =
      some (((Statement.step >>= fun _ => pure ()) (boundStatement db program bindings)).1,
        db.put stmt.id
          ((Statement.step >>= fun _ => pure ()) (boundStatement db program bindings)).2)) :
    Runs (statementExecute host stmt vars >>= call) db rounds
      ((boundStatement db program bindings).drain rounds) f := by
  rcases rowless_cases (m := boundStatement db program bindings) hcolumns with
    hanswer | ⟨e, hanswer⟩
  · have hstep := Statement.step_last (m := boundStatement db program bindings) rfl hanswer
    rw [RubyM.bind_run_ok none _ hstep] at hrun
    have hput :=
      Database.statement_put h ((boundStatement db program bindings).stepped.setDoneP true)
    have hend := hc.done rounds _ _ hput
      (congrArg (·.columns) (Statement.stepped_program (boundStatement db program bindings))) rfl
    have hcall := (executed_run hrun call).trans hend
    refine ⟨?_, fun a db' hend' => ?_⟩
    · rw [result, hcall, Machine.drain_last hanswer]
      rfl
    · rw [hcall] at hend'
      obtain ⟨-, rfl⟩ := Prod.mk.inj (Option.some.inj hend')
      refine ⟨[.reset, .started, .completed], ?_, rfl⟩
      calc (boundStatement db program bindings).stepped.events
          = db.events ++ [.reset] ++ [.started] ++ [.completed] := Statement.stepped_last hanswer
        _ = db.events ++ [.reset, .started, .completed] := by simp
  · rcases hstep : Statement.step (boundStatement db program bindings) with ⟨o, m'⟩
    obtain rfl : o = .raise e := by
      rw [← Statement.step_raise (m := boundStatement db program bindings) rfl hanswer, hstep]
    rw [RubyM.bind_run_raise _ hstep] at hrun
    rw [statementExecute, CallM.bind_assoc, Machine.drain_raise hanswer rounds]
    exact runs_raise (CallM.bind_run_raise _ hrun)

/-- A statement with columns is stepped by the call that follows. -/
theorem runs_columns {call : ResultSet → QueryM C α} {bindings : Bindings}
    (hc : Collects stmt program.columns P (call ⟨stmt, db.resultsAsHash⟩) f)
    (h : db.statement stmt.id = some { program })
    (hP : ∀ e, (boundStatement db program bindings).drain rounds = some (.raise e) → P e)
    (hrun : onStatement stmt (Statement.execute host vars) rounds db =
      some (.ok (), db.put stmt.id (boundStatement db program bindings))) :
    Runs (statementExecute host stmt vars >>= call) db rounds
      ((boundStatement db program bindings).drain rounds) f := by
  have hput := Database.statement_put h (boundStatement db program bindings)
  have hcall := executed_run hrun call
  refine ⟨?_, fun a db' hend => ?_⟩
  · rw [result, hcall]
    exact hc.result rounds _ _ hput rfl rfl hP
  · rw [hcall] at hend
    have hevents := hc.events rounds _ _ a db' hput rfl rfl hP hend
    refine ⟨[.reset, .started, .completed], ?_, rfl⟩
    rw [hevents]
    simp [boundStatement, Database.put, Machine.withEvents, Database.machine, Machine.setBindings,
      Vm.isActive]

/-- A new statement that is executed and then stepped through. -/
theorem runs_executed (host : Host) (vars : List BindVar) (rounds : Nat)
    (call : ResultSet → QueryM C α)
    (hc : Collects stmt program.columns P (call ⟨stmt, db.resultsAsHash⟩) f)
    (h : db.statement stmt.id = some { program })
    (hP : ∀ m e, Statement.bindParams host vars (db.machine { program }) = (.ok (), m) →
      m.drain rounds = some (.raise e) → P e) :
    Runs (statementExecute host stmt vars >>= call) db rounds
      (comesTo (Statement.bindParams host vars (db.machine { program })) rounds) f := by
  have hrun := onStatement_run h (Statement.execute host vars) rounds
  rcases hbound : Statement.bindParams host vars (db.machine { program }) with ⟨o, m⟩
  rw [hbound] at hP
  rw [execute_fresh hbound] at hrun
  cases o with
  | raise e =>
      rw [statementExecute, CallM.bind_assoc]
      exact runs_raise (CallM.bind_run_raise _ hrun)
  | jump tag =>
      rw [statementExecute, CallM.bind_assoc]
      exact runs_jump (CallM.bind_run_jump _ hrun)
  | ok _ =>
      obtain ⟨bindings, rfl⟩ := bound_same hbound
      rw [RubyM.lift_ok_bind] at hrun
      change Runs _ _ _ ((boundStatement db program bindings).drain rounds) _
      by_cases hcolumns : program.columns = []
      · rw [if_pos (by simpa using hcolumns)] at hrun
        exact runs_rowless hc h hcolumns hrun
      · rw [if_neg (by simpa using hcolumns)] at hrun
        exact runs_columns hc h (hP ((db.machine { program }).setBindings bindings) · rfl) hrun

/-! ## The paths -/

variable {compile : List UInt8 → C → Compiled C} {sql : RString}
  {outcome : Option (Outcome (List (List Value)))}

/-- What a query comes to on a database that compiles it to `program`. -/
def expected (host : Host) (program : Program C) (vars : List BindVar) (db : Database C)
    (rounds : Nat) : Option (Outcome (List (List Value))) :=
  comesTo (Statement.bindParams host vars (db.machine { program })) rounds

theorem bindParams_array (vars : List BindVar) :
    Statement.bindParams (C := C) host [.array vars] = Statement.bindParams host vars := by
  rw [Statement.bindParams, Statement.bindParams]
  simp [flattenAll, BindVar.flatten]

theorem prepare_run (h : Compiles host compile db sql program) (rounds : Nat) :
    ∃ stmt, stmt.id = db.statements.length ∧
      prepare host compile sql rounds db = some (.ok stmt, db.push (some { program })) := by
  obtain ⟨hopen, text, tail, htext, hcompile⟩ := h
  exact ⟨⟨db.statements.length, _⟩, rfl, prepare_statement rounds hopen htext hcompile⟩

theorem Compiles.unique {program program' : Program C} (h : Compiles host compile db sql program)
    (h' : Compiles host compile db sql program') : program = program' := by
  obtain ⟨-, text, tail, htext, hcompile⟩ := h
  obtain ⟨-, text', tail', htext', hcompile'⟩ := h'
  obtain rfl := Outcome.ok.inj (htext.symm.trans htext')
  exact (Compiled.statement.inj (hcompile.symm.trans hcompile')).1

/-- `prepare` makes an open statement of a text that compiles to one, and otherwise leaves
the open statements as they are. -/
theorem prepare_cases (host : Host) (compile : List UInt8 → C → Compiled C) (sql : RString)
    (rounds : Nat) (db : Database C) :
    (∃ program stmt, Compiles host compile db sql program ∧ stmt.id = db.statements.length ∧
      prepare host compile sql rounds db = some (.ok stmt, db.push (some { program }))) ∨
    ((∀ program, ¬ Compiles host compile db sql program) ∧
      ((∃ stmt, stmt.id = db.statements.length ∧
        prepare host compile sql rounds db = some (.ok stmt, db.push none)) ∨
      ∃ o, ¬ o.Returns ∧ prepare host compile sql rounds db = some (o, db))) := by
  cases hopen : db.isOpen with
  | false =>
      refine Or.inr ⟨fun program h => ?_, Or.inr ⟨.raise ⟨.ArgumentError,
        "prepare called on a closed database"⟩, Outcome.not_returns_raise _, ?_⟩⟩
      · exact absurd h.1 (by simp [hopen])
      · rw [prepare, CallM.get_bind, if_neg (by simp [hopen])]
        rfl
  | true =>
      cases htext : strEncodeUtf8 host sql with
      | ok text =>
          cases hcompile : compile (sqlRead text) db.content with
          | statement program tail =>
              exact Or.inl ⟨program, _, ⟨hopen, text, tail, htext, hcompile⟩, rfl,
                prepare_statement rounds hopen htext hcompile⟩
          | noStatement tail =>
              refine Or.inr ⟨?_, Or.inl ⟨_, rfl, prepare_noStatement rounds hopen htext hcompile⟩⟩
              rintro program ⟨-, text', tail', htext', hcompile'⟩
              obtain rfl := Outcome.ok.inj (htext.symm.trans htext')
              cases hcompile.symm.trans hcompile'
          | error status errmsg =>
              obtain ⟨e, he, -⟩ := check_errorStatus status errmsg
              refine Or.inr ⟨?_, Or.inr ⟨.raise e, Outcome.not_returns_raise _, ?_⟩⟩
              · rintro program ⟨-, text', tail', htext', hcompile'⟩
                obtain rfl := Outcome.ok.inj (htext.symm.trans htext')
                cases hcompile.symm.trans hcompile'
              · have hcheck : (CallM.lift (check status.1 errmsg) : QueryM C Unit) rounds db =
                    some (.raise e, db) := by rw [he]; rfl
                rw [prepare, CallM.get_bind, if_pos hopen, htext, CallM.lift_ok_bind, hcompile]
                exact CallM.bind_run_raise _ hcheck
      | raise e =>
          refine Or.inr ⟨?_, Or.inr ⟨.raise e, Outcome.not_returns_raise _, ?_⟩⟩
          · rintro program ⟨-, text', tail', htext', -⟩
            cases htext.symm.trans htext'
          · rw [prepare, CallM.get_bind, if_pos hopen, htext]
            rfl
      | jump tag =>
          refine Or.inr ⟨?_, Or.inr ⟨.jump tag, Outcome.not_returns_jump _, ?_⟩⟩
          · rintro program ⟨-, text', tail', htext', -⟩
            cases htext.symm.trans htext'
          · rw [prepare, CallM.get_bind, if_pos hopen, htext]
            rfl

/-- The statement is run inside a block of `prepare`. -/
theorem runs_prepareBlock {block : Prepared → QueryM C α}
    (h : Compiles host compile db sql program)
    (hblock : ∀ stmt, stmt.id = db.statements.length →
      Runs (block stmt) (db.push (some { program })) rounds outcome f) :
    Runs (prepareBlock host compile sql block) db rounds outcome f := by
  obtain ⟨stmt, hid, hprepare⟩ := prepare_run h rounds
  obtain ⟨hresult, honce⟩ := hblock stmt hid
  rw [result] at hresult
  cases hcall : block stmt rounds (db.push (some { program })) with
  | none =>
      have hrun : prepareBlock host compile sql block rounds db = none :=
        (CallM.bind_run_ok stmt _ hprepare).trans (CallM.ensure_none hcall)
      refine ⟨?_, fun a db' hend => ?_⟩
      · rw [result, hrun, ← hresult, hcall]
      · rw [hrun] at hend
        cases hend
  | some r =>
      obtain ⟨o, db₁⟩ := r
      have hrun := prepareBlock_run rounds hprepare hcall
      refine ⟨?_, fun a db' hend => ?_⟩
      · rw [result, hrun, ← hresult, hcall]
        rfl
      · rw [hrun] at hend
        obtain ⟨rfl, rfl⟩ := Prod.mk.inj (Option.some.inj hend)
        obtain ⟨events, hlast, hruns⟩ := honce a db₁ hcall
        exact ⟨events, (Database.without_events _ _).trans hlast, hruns⟩

theorem runs_prepare {call : Prepared → QueryM C α} (h : Compiles host compile db sql program)
    (hcall : ∀ stmt, stmt.id = db.statements.length →
      Runs (call stmt) (db.push (some { program })) rounds outcome f) :
    Runs (prepare host compile sql >>= call) db rounds outcome f := by
  obtain ⟨stmt, hid, hprepare⟩ := prepare_run h rounds
  obtain ⟨hresult, honce⟩ := hcall stmt hid
  have hrun := CallM.bind_run_ok stmt call hprepare
  refine ⟨?_, fun a db' hend => ?_⟩
  · rw [result, hrun]
    exact hresult
  · rw [hrun] at hend
    exact honce a db' hend

theorem Runs.map {β : Type} {call : QueryM C α} (h : Runs call db rounds outcome f) (k : α → β) :
    Runs (call >>= fun a => pure (k a)) db rounds outcome fun rows => k (f rows) := by
  obtain ⟨hresult, honce⟩ := h
  rw [Query.result] at hresult
  cases hcall : call rounds db with
  | none =>
      have hrun := CallM.bind_run_none (fun a => pure (k a)) hcall
      rw [hcall] at hresult
      obtain rfl : outcome = none := by simpa using hresult.symm
      refine ⟨?_, fun a db' hend => ?_⟩
      · rw [Query.result, hrun]
        rfl
      · rw [hrun] at hend
        cases hend
  | some r =>
      obtain ⟨o, db'⟩ := r
      rw [hcall] at hresult
      obtain ⟨o', rfl, ho⟩ := Option.map_eq_some_iff.mp hresult.symm
      obtain rfl : f <$> o' = o := ho
      cases o' with
      | ok rows =>
          have hrun := CallM.bind_run_ok (f rows) (fun a => pure (k a)) hcall
          refine ⟨?_, fun b db'' hend => ?_⟩
          · rw [Query.result, hrun]
            rfl
          · rw [hrun] at hend
            obtain ⟨-, rfl⟩ := Prod.mk.inj (Option.some.inj hend)
            exact honce (f rows) db' hcall
      | raise e => exact runs_raise (CallM.bind_run_raise _ hcall)
      | jump tag => exact runs_jump (CallM.bind_run_jump _ hcall)

theorem Runs.congr {call call' : QueryM C α} (h : Runs call db rounds outcome f)
    (hcall : call' rounds db = call rounds db) : Runs call' db rounds outcome f := by
  obtain ⟨hresult, honce⟩ := h
  refine ⟨?_, fun a db' hend => honce a db' (hcall.symm.trans hend)⟩
  rw [Query.result, hcall]
  exact hresult

/-- Binding leaves `results_as_hash` alone. -/
theorem bindParams_build {s : Statement C} (h : db.statement stmt.id = some s)
    (call : ResultSet → QueryM C α) :
    (bindParams host stmt vars >>= fun _ => buildResultSet stmt >>= call) rounds db =
      (bindParams host stmt vars >>= fun _ => call ⟨stmt, db.resultsAsHash⟩) rounds db := by
  have hrun := bindParams_run host vars rounds h
  rcases hbound : Statement.bindParams host vars (db.machine s) with ⟨o, m⟩
  rw [hbound] at hrun
  cases o with
  | ok _ =>
      rw [CallM.bind_run_ok _ _ hrun, CallM.bind_run_ok _ _ hrun]
      rfl
  | raise e => rw [CallM.bind_run_raise _ hrun, CallM.bind_run_raise _ hrun]
  | jump tag => rw [CallM.bind_run_jump _ hrun, CallM.bind_run_jump _ hrun]

/-- Reading the names of the columns first changes nothing. -/
theorem collects_columns {columns : List String} {call : List String → QueryM C α}
    (hc : Collects stmt columns P (call columns) f) :
    Collects stmt columns P (Query.columns stmt >>= call) f := by
  have hcall (rounds : Nat) (db : Database C) (s : Statement C)
      (h : db.statement stmt.id = some s) (hcolumns : s.program.columns = columns) :
      (Query.columns stmt >>= call) rounds db = call columns rounds db := by
    rw [CallM.bind_run_ok _ _ (columns_run h rounds), hcolumns]
  refine ⟨?_, ?_, ?_⟩
  · intro rounds db s h hcolumns hdone hP
    rw [result, hcall rounds db s h hcolumns]
    exact hc.result rounds db s h hcolumns hdone hP
  · intro rounds db s a db' h hcolumns hdone hP hend
    rw [hcall rounds db s h hcolumns] at hend
    exact hc.events rounds db s a db' h hcolumns hdone hP hend
  · intro rounds db s h hcolumns hdone
    rw [hcall rounds db s h hcolumns]
    exact hc.done rounds db s h hcolumns hdone

theorem collects_toA (rs : ResultSet) (columns : List String) :
    Collects (C := C) rs.stmt columns (fun _ => True) rs.toA fun rows => rows.map (rs.row columns) :=
  collects_while (next_handsOut rs columns) []

theorem collects_each (stmt : Prepared) (columns : List String) :
    Collects (C := C) stmt columns (·.isStopIteration = false) (statementEach stmt pushRow [])
      fun rows => rows.map id :=
  collects_loop (nextValues_handsOut stmt columns) []

/-- The row a path hands out. -/
def Path.row (path : Path) (db : Database C) (columns : List String) (values : List Value) : Row :=
  if path.hasResultSet && db.resultsAsHash then .hash (zipToH columns values) else .array values

theorem execute2_runs (h : Compiles host compile db sql program) (rounds : Nat) :
    Runs (execute2 host compile sql vars) db rounds (expected host program vars db rounds)
      fun rows => .header program.columns :: rows.map (Path.execute2.row db program.columns) := by
  refine runs_prepareBlock h fun stmt hid => ?_
  refine runs_executed host vars rounds _ (P := fun _ => True) (collects_columns ?_)
    (by rw [hid, Database.statement_push]) fun _ _ _ _ => trivial
  exact collects_while (next_handsOut ⟨stmt, db.resultsAsHash⟩ program.columns)
    [.header program.columns]

/-- Each path comes to what the execution comes to, unless it is one of `loop` and the
execution raises a `StopIteration`. -/
theorem path_runs (h : Compiles host compile db sql program) (path : Path) (rounds : Nat)
    (hstop : path.hasResultSet = true ∨ ∀ m e,
      Statement.bindParams host vars (db.machine { program }) = (.ok (), m) →
        m.drain rounds = some (.raise e) → e.isStopIteration = false) :
    Runs (path.run host compile sql vars) db rounds (expected host program vars db rounds)
      fun rows => rows.map (path.row db program.columns) := by
  have hnew {stmt : Prepared} (hid : stmt.id = db.statements.length) :
      (db.push (some { program })).statement stmt.id = some { program } := by
    rw [hid]
    exact Database.statement_push _ _
  have hvalues (path : Path) (hpath : path.hasResultSet = false) :
      (fun rows : List (List Value) => rows.map (path.row db program.columns)) =
        fun rows => (rows.map id).map Row.array := by
    funext rows
    rw [List.map_id]
    exact List.map_congr_left fun values _ => by rw [Path.row, hpath]; rfl
  cases path with
  | execute =>
      refine runs_prepareBlock h fun stmt hid => ?_
      have hrun := runs_bound host [.array vars] rounds
        (collects_toA ⟨stmt, db.resultsAsHash⟩ _) (hnew hid) fun _ _ _ _ => trivial
      rw [bindParams_array] at hrun
      exact hrun.congr (bindParams_build (hnew hid) _)
  | executeBlock =>
      refine runs_prepareBlock h fun stmt hid => ?_
      have hrun := runs_bound host [.array vars] rounds
        (collects_toA ⟨stmt, db.resultsAsHash⟩ _) (hnew hid) fun _ _ _ _ => trivial
      rw [bindParams_array] at hrun
      exact hrun.congr (bindParams_build (hnew hid) _)
  | execute2 => exact (execute2_runs h rounds).map List.tail
  | query =>
      rw [Path.run, query, CallM.bind_assoc]
      refine runs_prepare h fun stmt hid => ?_
      rw [expected, ← bindParams_array]
      exact runs_executed host [.array vars] rounds ResultSet.toA
        (collects_toA ⟨stmt, db.resultsAsHash⟩ _) (hnew hid) fun _ _ _ _ => trivial
  | statementExecute =>
      refine runs_prepare h fun stmt hid => ?_
      exact runs_executed host vars rounds ResultSet.toA
        (collects_toA ⟨stmt, db.resultsAsHash⟩ _) (hnew hid) fun _ _ _ _ => trivial
  | executeBang =>
      have hstop := hstop.resolve_left (by simp [Path.hasResultSet])
      rw [hvalues _ rfl]
      refine runs_prepare h fun stmt hid => ?_
      exact (runs_executed host vars rounds (fun _ => statementEach stmt pushRow [])
        (collects_each stmt program.columns) (hnew hid) hstop).map (List.map Row.array)
  | each =>
      have hstop := hstop.resolve_left (by simp [Path.hasResultSet])
      rw [hvalues _ rfl]
      refine runs_prepare h fun stmt hid => ?_
      have hrun := (runs_bound host vars rounds (collects_each stmt program.columns) (hnew hid)
        hstop).map (List.map Row.array)
      rwa [CallM.bind_assoc] at hrun

/-- A `StopIteration` does not leave `Statement#each`. -/
theorem each_stops (h : Compiles host compile db sql program) {m : Machine C}
    (hbound : Statement.bindParams host vars (db.machine { program }) = (.ok (), m))
    {e : RubyException} (hdrain : m.drain rounds = some (.raise e))
    (hstop : e.isStopIteration = true) :
    ∃ rows, result (Path.each.run host compile sql vars) db rounds = some (.ok rows) := by
  obtain ⟨stmt, hid, hprepare⟩ := prepare_run h rounds
  have hnew : (db.push (some { program })).statement stmt.id = some { program } := by
    rw [hid]
    exact Database.statement_push _ _
  have hbind := bindParams_run host vars rounds hnew
  rw [show Statement.bindParams host vars ((db.push (some { program })).machine { program }) =
    (.ok (), m) from hbound] at hbind
  obtain ⟨bindings, rfl⟩ := bound_same hbound
  obtain ⟨rows, db', hloop⟩ := loopRounds_stop (nextValues_handsOut stmt program.columns) rounds
    rounds [] (Database.statement_put hnew ((db.machine { program }).setBindings bindings)) rfl rfl
    hdrain hstop
  refine ⟨rows.map .array, ?_⟩
  rw [result, Path.run, CallM.bind_run_ok _ _ hprepare, CallM.bind_run_ok _ _ hbind]
  have heach := CallM.bind_run_ok rows (fun rows => pure (rows.map Row.array)) hloop
  exact congrArg (Option.map Prod.fst) heach

theorem map_eq_raise_iff {f : List (List Value) → α} {e : RubyException} :
    outcome.map (f <$> ·) = some (.raise e) ↔ outcome = some (.raise e) := by
  cases outcome with
  | none => simp
  | some o => cases o <;> simp

/-- The paths agree exactly when no step of the bound statement raises a `StopIteration`. -/
theorem queries_agree_iff (h : Compiles host compile db sql program) :
    Agree host compile db sql vars program ↔
      ∀ m, Statement.bindParams host vars (db.machine { program }) = (.ok (), m) →
        program.NeverStops m.statement.bindings m.content := by
  constructor
  · intro hagree m hbound rounds e hdrain
    by_contra hstop
    rw [Bool.not_eq_false] at hstop
    obtain ⟨bindings, rfl⟩ := bound_same hbound
    have hexpected : expected host program vars db rounds = some (.raise e) := by
      rw [expected, hbound]
      exact hdrain
    have hexecute : result (Path.execute.run host compile sql vars) db rounds =
        some (.raise e) := by
      rw [(path_runs h .execute rounds (Or.inl rfl)).result, hexpected]
      rfl
    obtain ⟨rows, hrows⟩ := each_stops h hbound hdrain hstop
    have heach := (hagree.errors .each rounds e).mpr hexecute
    rw [hrows] at heach
    cases heach
  · intro hstop
    have hruns (path : Path) (rounds : Nat) : Runs (path.run host compile sql vars) db rounds
        (expected host program vars db rounds)
        fun rows => rows.map (path.row db program.columns) := by
      refine path_runs h path rounds (Or.inr fun m e hbound hdrain => ?_)
      obtain ⟨bindings, rfl⟩ := bound_same hbound
      exact hstop _ hbound rounds e hdrain
    refine ⟨?_, ?_, ?_, ?_⟩
    · intro path hpath rounds
      have hrow : path.row db program.columns = Path.execute.row db program.columns := by
        funext values
        rcases hpath with hpath | hhash
        · rw [Path.row, Path.row, hpath, show Path.execute.hasResultSet = true from rfl]
        · rw [Path.row, Path.row, hhash, Bool.and_false, Bool.and_false]
      rw [(hruns path rounds).result, (hruns .execute rounds).result, hrow]
    · intro path rounds e
      rw [(hruns path rounds).result, (hruns .execute rounds).result, map_eq_raise_iff,
        map_eq_raise_iff]
    · intro rounds rows hend
      rw [(execute2_runs h rounds).result] at hend
      obtain ⟨o, -, ho⟩ := Option.map_eq_some_iff.mp hend
      cases o with
      | ok rest =>
          rw [← Outcome.ok.inj ho]
          rfl
      | raise e => cases ho
      | jump tag => cases ho
    · intro path rounds rows db' hend
      exact (hruns path rounds).once rows db' hend

/-- A connection to a database with nothing in it. -/
def newDatabase {C : Type} (content : C) : Database C := ⟨true, false, content, [], []⟩

/-- A query that returns this row, and no other. -/
def oneRow (columns : List String) (hcolumns : columns ≠ []) (values : List SqliteValue) :
    Program Unit where
  columns := columns
  parameterCount := 0
  parameterIndex _ := 0
  answer earlier _ := if earlier.isEmpty then .row none values () else .done none ()
  rowless h := absurd h hcolumns

theorem insert_agrees :
    Agree Statement.littleHost (fun _ _ => .statement Statement.insertProgram []) (newDatabase 0)
      (utf8String []) [] Statement.insertProgram := by
  refine (queries_agree_iff ⟨rfl, [], [], rfl, rfl⟩).mpr ?_
  intro m _ rounds e hdrain
  let m' : Machine Nat :=
    ⟨m.content, { program := Statement.insertProgram, bindings := m.statement.bindings }, []⟩
  have hlast : m'.drain rounds = some (.ok []) := Machine.drain_last rfl rounds
  cases hlast.symm.trans hdrain

/-- `select nth(x) from t`, with an aggregate whose `finalize` asks an enumerator for a value
that it does not have. -/
def exhausted : Program Unit where
  columns := ["nth(x)"]
  parameterCount := 0
  parameterIndex _ := 0
  answer _ _ :=
    .error (some ⟨.StopIteration, "iteration reached an end"⟩) ⟨1, Nat.one_ne_zero⟩
      "iteration reached an end" ()
  rowless h := by cases h

/-- `execute` raises the `StopIteration`; `each` returns without a row. -/
theorem exhausted_disagrees :
    ¬ Agree Statement.littleHost (fun _ _ => .statement exhausted []) (newDatabase ())
      (utf8String []) [] exhausted := by
  intro hagree
  have heach := (hagree.errors .each 0 ⟨.StopIteration, "iteration reached an end"⟩).mpr rfl
  cases heach

end Query

end Sqlite3Ruby
