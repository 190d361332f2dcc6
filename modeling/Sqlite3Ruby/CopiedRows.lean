import Sqlite3Ruby.History

/-!
# Rows that are read and stored again

A row that `step` hands out is an array of Ruby values, and an array is what `execute` binds
to the parameters of a statement. `rows.each { |row| stmt.execute(row) }` sends what SQLite
had stored through both conversions.

## Implementation notes

`insertAll` is the same loop inside of SQLite: the values never leave it, and every run of
the program is a new one. The statement of the loop in Ruby has a past, which its first
`execute` has to reset. A run may be unwound by one of its callbacks.
-/

namespace Sqlite3Ruby

/-- The rows of an execution in SQLite's own values, if it ends with `SQLITE_DONE` and has no more
than this number of rows. -/
def Program.select {C : Type} (program : Program C) (bindings : Bindings) :
    Nat → List (View C) → C → Option (List (List SqliteValue))
  | 0, earlier, content =>
      match program.answer earlier ⟨bindings, content⟩ with
      | .done none _ => some []
      | _ => none
  | rounds + 1, earlier, content =>
      match program.answer earlier ⟨bindings, content⟩ with
      | .done none _ => some []
      | .row none values after =>
          (program.select bindings rounds (earlier ++ [⟨bindings, content⟩]) after).map (values :: ·)
      | _ => none

/-- What the execution that a machine is at hands out. -/
def Machine.select {C : Type} (m : Machine C) (rounds : Nat) : Option (List (List SqliteValue)) :=
  m.statement.program.select m.statement.bindings rounds m.statement.vm.earlier m.content

/-- The values of a row at the first parameters, and NULL everywhere else. -/
def rowBindings (row : List SqliteValue) : Bindings
  | 0 => .value .null
  | i + 1 => .value (row[i]?.getD .null)

/-- One run of a program without columns. -/
def Unwinding.insert {C : Type} (u : Unwinding C) (program : Program C) (content : C)
    (row : List SqliteValue) : Outcome Unit × C :=
  match u.step program [] ⟨rowBindings row, content⟩ with
  | some (e, content) => (.raise e, content)
  | none =>
      let answer := program.answer [] ⟨rowBindings row, content⟩
      ((fun _ => ()) <$> answer.outcome, answer.content)

/-- A run for each row, up to the first that fails. -/
def Unwinding.insertAll {C : Type} (u : Unwinding C) (program : Program C) :
    List (List SqliteValue) → C → Outcome Unit × C
  | [], content => (.ok (), content)
  | row :: rows, content =>
      match u.insert program content row with
      | (.ok _, content) => u.insertAll program rows content
      | (.raise e, content) => (.raise e, content)
      | (.jump tag, content) => (.jump tag, content)

/-! ## What is read -/

section Read

variable {C : Type}

theorem select_last {m : Machine C} {after : C} (h : m.next = .done none after) (rounds : Nat) :
    m.select rounds = some [] := by
  rw [Machine.next, Machine.view] at h
  rw [Machine.select]
  cases rounds with
  | zero => rw [Program.select, h]
  | succ rounds => rw [Program.select, h]

theorem select_row {m : Machine C} {values : List SqliteValue} {after : C}
    (h : m.next = .row none values after) (rounds : Nat) :
    m.select (rounds + 1) = (m.stepped.select rounds).map (values :: ·) := by
  have hstepped : m.stepped.select rounds =
      m.statement.program.select m.statement.bindings rounds
        (m.statement.vm.earlier ++ [m.view]) after := by
    rw [Machine.stepped, h]
    rfl
  rw [hstepped]
  rw [Machine.next, Machine.view] at h
  rw [Machine.select, Program.select, h]
  rfl

theorem map_cons_eq_ok {row : List Value} {o : Outcome (List (List Value))}
    {read : List (List Value)} (h : (row :: ·) <$> o = .ok read) :
    ∃ rest, o = .ok rest ∧ read = row :: rest := by
  cases o with
  | ok rest => exact ⟨rest, rfl, (Outcome.ok.inj h).symm⟩
  | raise e => cases h
  | jump tag => cases h

theorem select_of_drain {m : Machine C} {limit : Nat} {read : List (List Value)}
    (h : m.drain limit = some (.ok read)) :
    ∃ rows, m.select limit = some rows ∧ read = rows.map fun row => row.map columnToRb := by
  induction limit generalizing m read with
  | zero =>
      cases hanswer : m.next.outcome with
      | raise e => cases (Machine.drain_raise hanswer 0).symm.trans h
      | jump tag => exact absurd hanswer (Answer.outcome_ne_jump _ tag)
      | ok row =>
          cases row with
          | some row => cases (Machine.drain_zero hanswer).symm.trans h
          | none =>
              obtain ⟨after, hnext⟩ := Answer.outcome_eq_none hanswer
              have hlast := (Machine.drain_last hanswer 0).symm.trans h
              obtain rfl := Outcome.ok.inj (Option.some.inj hlast)
              exact ⟨[], select_last hnext 0, rfl⟩
  | succ limit ih =>
      cases hanswer : m.next.outcome with
      | raise e => cases (Machine.drain_raise hanswer (limit + 1)).symm.trans h
      | jump tag => exact absurd hanswer (Answer.outcome_ne_jump _ tag)
      | ok row =>
          cases row with
          | none =>
              obtain ⟨after, hnext⟩ := Answer.outcome_eq_none hanswer
              obtain rfl := Outcome.ok.inj
                (Option.some.inj ((Machine.drain_last hanswer (limit + 1)).symm.trans h))
              exact ⟨[], select_last hnext (limit + 1), rfl⟩
          | some row =>
              obtain ⟨values, after, hnext, rfl⟩ := Answer.outcome_eq_row hanswer
              rw [Machine.drain_succ hanswer] at h
              obtain ⟨o, hrest, ho⟩ := Option.map_eq_some_iff.mp h
              obtain ⟨rest, rfl, rfl⟩ := map_cons_eq_ok ho
              obtain ⟨rows, hselect, rfl⟩ := ih hrest
              exact ⟨values :: rows, by rw [select_row hnext, hselect]; rfl, rfl⟩

end Read

/-! ## A value -/

/-- A value that SQLite had stored is bound as it was. -/
theorem bindParam_columnToRb (host : Host) (x : SqliteValue) :
    bindParam host (columnToRb x) = .ok (.value x) := by
  cases x with
  | null => exact bindParam_eq_value rfl rfl
  | integer n =>
      have hcall : bindCall host (.integer n.toInt) = .ok (.int64 (Int64.ofInt n.toInt)) := by
        rw [bindCall_integer, if_pos (isInt64_toInt n)]
      rw [Int64.ofInt_toInt] at hcall
      exact bindParam_eq_value hcall rfl
  | float d =>
      have hstored : (ValueCall.double d.1).stored host.byteOrder = .value (.float d) := by
        rw [ValueCall.stored, ofDouble_val]
      exact bindParam_eq_value rfl hstored
  | text bytes => exact bindParam_eq_value rfl (stored_text host.byteOrder bytes.2)
  | blob bytes => exact bindParam_eq_value rfl (stored_blob host.byteOrder bytes.2)

namespace RubyM

theorem bind_pure_fst {σ α β : Type} (m : RubyM σ α) (f : α → β) (s : σ) :
    ((m >>= fun a => pure (f a)) s).1 = f <$> (m s).1 := by
  rcases hrun : m s with ⟨o, t⟩
  cases o with
  | ok a => rw [bind_run_ok a _ hrun, pure_run, Outcome.map_ok]
  | raise e => rw [bind_run_raise _ hrun, Outcome.map_raise]
  | jump tag => rw [bind_run_jump _ hrun, Outcome.map_jump]

end RubyM

namespace Statement

variable {C : Type} (u : Unwinding C) (host : Host)

/-- `rows.each { |row| stmt.execute(row) }`. -/
def executeRows : List (List Value) → StatementM C Unit
  | [] => pure ()
  | row :: rows => do
      Unwinding.execute u host [.array (row.map .value)]
      executeRows rows

/-! ## A row -/

/-- The writes of a row from the `n`-th parameter on. -/
def rowWrites (n : Nat) : List SqliteValue → List (Nat × Stored)
  | [] => []
  | x :: row => (n, .value x) :: rowWrites (n + 1) row

theorem rowWrites_indices (n : Nat) (row : List SqliteValue) :
    (rowWrites n row).map (·.1) = List.range' n row.length := by
  induction row generalizing n with
  | nil => rfl
  | cons x row ih => rw [rowWrites, List.map_cons, ih, List.length_cons, List.range'_succ]

theorem mem_rowWrites {n i : Nat} {row : List SqliteValue} {x : SqliteValue}
    (h : row[i]? = some x) : (n + i, .value x) ∈ rowWrites n row := by
  induction row generalizing n i with
  | nil => cases h
  | cons y row ih =>
      cases i with
      | zero =>
          obtain rfl := Option.some.inj h
          exact List.mem_cons_self
      | succ i =>
          have hmem := ih (n := n + 1) (i := i) h
          rw [Nat.add_assoc, Nat.add_comm 1 i] at hmem
          exact List.mem_cons_of_mem _ hmem

/-- All the parameters are written, with nothing but NULL beside them. -/
theorem write_row {bindings : Bindings} {row : List SqliteValue}
    (houtside : ∀ i, i < 1 ∨ row.length < i → bindings i = .value .null) :
    Bindings.write bindings (rowWrites 1 row) = rowBindings row := by
  have hindices := rowWrites_indices 1 row
  have hnodup : ((rowWrites 1 row).map (·.1)).Nodup := hindices ▸ List.nodup_range'
  ext i
  by_cases hi : i < 1 ∨ row.length < i
  · have hmem : i ∉ (rowWrites 1 row).map (·.1) := by
      rw [hindices, List.mem_range'_1]
      omega
    rw [write_of_not_mem hmem, houtside i hi]
    cases i with
    | zero => rfl
    | succ i =>
        rw [rowBindings, List.getElem?_eq_none (by omega)]
        rfl
  · obtain ⟨j, rfl⟩ : ∃ j, i = 1 + j := ⟨i - 1, by omega⟩
    have hj : row[j]? = some row[j] := List.getElem?_eq_getElem (by omega)
    rw [write_of_mem hnodup (mem_rowWrites hj), Nat.add_comm 1 j, rowBindings, hj]
    rfl

theorem writes_row {program : Program C} (hsmall : program.parameterCount < 2 ^ 31) {n : Nat}
    (hn : 1 ≤ n) {row : List SqliteValue} (hrow : n + row.length ≤ program.parameterCount + 1) :
    List.Forall₂ (Writes host program) (positional n (row.map columnToRb)) (rowWrites n row) := by
  induction row generalizing n with
  | nil => exact .nil
  | cons x row ih =>
      rw [List.length_cons] at hrow
      have hindex : num2int (.integer n) = .ok (n : Int) := by
        rw [num2int, checkInt, if_neg (by omega), if_neg (by omega)]
      have hwrites : Writes host program (.value (.integer n), columnToRb x) (n, .value x) :=
        ⟨hindex, hn, by change n ≤ _; omega, bindParam_columnToRb host x⟩
      exact .cons hwrites (ih (n := n + 1) (by omega) (by omega))

theorem flattenAll_row (row : List Value) :
    flattenAll [.array (row.map .value)] = flattenAll (row.map .value) := by
  rw [flattenAll, BindVar.flatten, flattenAll, List.append_nil]

/-- The array of a row binds the row. -/
theorem bindParams_row {program : Program C} (hsmall : program.parameterCount < 2 ^ 31)
    {bindings : Bindings} {row : List SqliteValue} (hrow : row.length = program.parameterCount)
    (houtside : ∀ i, i < 1 ∨ program.parameterCount < i → bindings i = .value .null) (content : C)
    (events : List VmEvent) :
    bindParams host [.array ((row.map columnToRb).map .value)]
        (atStart program content bindings events) =
      (.ok (), atStart program content (rowBindings row) events) := by
  apply (bindParams_eq_ok_iff host).mpr
  refine ⟨rowWrites 1 row, ?_, fun _ => rfl, ?_⟩
  · rw [flattenAll_row, assignments_values]
    exact writes_row host hsmall (Nat.le_refl 1) (by omega)
  · rw [← hrow] at houtside
    rw [← write_row houtside]
    rfl

/-- A step of a statement that has just been reset is one run of its program. One that returns
has brought the machine to its end. -/
theorem step_atStart {program : Program C} (hcolumns : program.columns = []) (content : C)
    (row : List SqliteValue) (events : List VmEvent) :
    let run := Unwinding.step u (atStart program content (rowBindings row) events)
    ((fun _ => ()) <$> run.1, run.2.content) = u.insert program content row ∧
      (run.1.Returns → run.2.statement.vm.isActive = false) := by
  let m := atStart program content (rowBindings row) events
  change ((fun _ => ()) <$> (Unwinding.step u m).1, (Unwinding.step u m).2.content) = _ ∧
    ((Unwinding.step u m).1.Returns → (Unwinding.step u m).2.statement.vm.isActive = false)
  cases hcall : u.step program [] ⟨rowBindings row, content⟩ with
  | some r =>
      have hunwound : Unwinding.step u m = (.raise r.1, m.unwound r.2) :=
        Unwinding.step_unwound u rfl hcall
      rw [hunwound, Unwinding.insert, hcall]
      exact ⟨rfl, fun h => absurd h (Outcome.not_returns_raise r.1)⟩
  | none =>
      have hback := Unwinding.step_back u (m := m) hcall
      have hcontent := Query.stepped_content m
      have hnext : m.next = program.answer [] ⟨rowBindings row, content⟩ := rfl
      have hinsert : u.insert program content row =
          ((fun _ => ()) <$> m.next.outcome, m.next.content) := by
        rw [Unwinding.insert, hcall, hnext]
      rw [hback, hinsert]
      cases houtcome : m.next.outcome with
      | ok answered =>
          cases answered with
          | some values =>
              obtain ⟨values, after, hanswer, -⟩ := Answer.outcome_eq_row houtcome
              have hrow := program.rowless hcolumns [] ⟨rowBindings row, content⟩
              rw [← hnext, hanswer] at hrow
              cases hrow
          | none =>
              obtain ⟨after, hanswer⟩ := Answer.outcome_eq_none houtcome
              rw [step_last rfl houtcome]
              refine ⟨Prod.ext rfl hcontent, fun _ => ?_⟩
              change m.stepped.statement.vm.isActive = false
              rw [Machine.stepped, hanswer]
              rfl
      | raise e =>
          refine ⟨Prod.ext (by rw [step_raise rfl houtcome]) ?_, fun h => ?_⟩
          · have hdone : m.statement.doneP = false := rfl
            rw [step_snd, hdone, if_neg Bool.false_ne_true]
            split
            · exact hcontent
            · split
              · exact hcontent
              · split
                · exact hcontent
                · exact hcontent
          · rw [step_raise rfl houtcome] at h
            exact absurd h (Outcome.not_returns_raise e)
      | jump tag => exact absurd houtcome (Answer.outcome_ne_jump _ tag)

theorem stepWithoutColumns_run {m : Machine C} (hcolumns : m.statement.program.columns = []) :
    Unwinding.stepWithoutColumns u m =
      ((fun _ => ()) <$> (Unwinding.step u m).1, (Unwinding.step u m).2) := by
  rw [Unwinding.stepWithoutColumns, RubyM.get_bind, hcolumns]
  exact Prod.ext (RubyM.bind_pure_fst _ _ _) (RubyM.bind_pure_snd _ _ _)

/-- Executing a row is one run of the program on what SQLite had stored. -/
theorem execute_row {program : Program C} (hcolumns : program.columns = [])
    (hsmall : program.parameterCount < 2 ^ 31) {m : Machine C} (hm : OnlyParameters program m)
    (hquiet : u.ResetsQuietly m) {row : List SqliteValue}
    (hrow : row.length = program.parameterCount) :
    let run := Unwinding.execute u host [.array ((row.map columnToRb).map .value)] m
    (run.1, run.2.content) = u.insert program m.content row ∧
      (run.1.Returns → u.ResetsQuietly run.2) := by
  have hbind := bindParams_row host hsmall hrow hm.outside m.content (m.events ++ [.reset])
  obtain ⟨hinsert, hactive⟩ := step_atStart u hcolumns m.content row (m.events ++ [.reset])
  have hstep := stepWithoutColumns_run u (m := atStart program m.content (rowBindings row)
    (m.events ++ [.reset])) hcolumns
  intro run
  have hrun : run = Unwinding.stepWithoutColumns u
      (atStart program m.content (rowBindings row) (m.events ++ [.reset])) := by
    change Unwinding.execute u host _ m = _
    rw [execute_eq_afterReset u host _ hquiet, hm.same, Unwinding.afterReset,
      RubyM.bind_run_ok () _ hbind]
  rw [hrun, hstep]
  refine ⟨hinsert, fun hreturns => ?_⟩
  refine Unwinding.resetsQuietly_of_not_active u (hactive ?_)
  rcases houtcome : (Unwinding.step u (atStart program m.content (rowBindings row)
    (m.events ++ [.reset]))).1 with a | e | tag
  · exact ⟨a, houtcome⟩
  · rw [houtcome] at hreturns
    exact absurd hreturns (Outcome.not_returns_raise e)
  · rw [houtcome] at hreturns
    exact absurd hreturns (Outcome.not_returns_jump tag)

/-! ## All of them -/

/-- Rows that were read are stored as SQLite would store them itself, whatever has happened to
the statement: the loop ends the same way, and leaves the same content. -/
theorem executeRows_eq_insertAll {program : Program C} (hcolumns : program.columns = [])
    (hsmall : program.parameterCount < 2 ^ 31) {m : Machine C} (hm : OnlyParameters program m)
    (hquiet : u.ResetsQuietly m) {rows : List (List SqliteValue)}
    (hrows : ∀ row ∈ rows, row.length = program.parameterCount) :
    let run := executeRows u host (rows.map fun row => row.map columnToRb) m
    (run.1, run.2.content) = u.insertAll program rows m.content := by
  induction rows generalizing m with
  | nil => rfl
  | cons row rows ih =>
      intro run
      obtain ⟨hrow, hrows⟩ := List.forall_mem_cons.mp hrows
      obtain ⟨hinsert, hafter⟩ := execute_row u host hcolumns hsmall hm hquiet hrow
      have houtside := hm.of_same
        (execute_outside u host [.array ((row.map columnToRb).map .value)] m)
      rcases hexecute : Unwinding.execute u host [.array ((row.map columnToRb).map .value)] m
        with ⟨o, n⟩
      rw [hexecute] at hinsert hafter houtside
      have hrun : run = (Unwinding.execute u host [.array ((row.map columnToRb).map .value)] >>=
        fun _ => executeRows u host (rows.map fun row => row.map columnToRb) :
          StatementM C Unit) m := rfl
      rw [hrun, Unwinding.insertAll, ← hinsert]
      cases o with
      | ok a =>
          rw [RubyM.bind_run_ok a _ hexecute]
          exact ih houtside (hafter (Outcome.returns_ok a)) hrows
      | raise e => rw [RubyM.bind_run_raise _ hexecute]
      | jump tag => rw [RubyM.bind_run_jump _ hexecute]

/-- `select a, b from t`, with two rows. -/
def bothColumns : Program Unit where
  columns := ["a", "b"]
  parameterCount := 0
  parameterIndex _ := 0
  answer earlier _ :=
    match earlier.length with
    | 0 => .row none [.integer (-1), .text ⟨[0x61, 0xFF], by decide⟩] ()
    | 1 => .row none [.null, .blob ⟨[0, 1], by decide⟩] ()
    | _ => .done none ()
  rowless h := by cases h

/-- `insert into u values (?, ?)`. -/
def intoBoth : Program (List (Stored × Stored)) where
  columns := []
  parameterCount := 2
  parameterIndex _ := 0
  answer _ now := .done none (now.content ++ [(now.bindings 1, now.bindings 2)])
  rowless _ _ _ := rfl

/-- It has been stepped with a value left over, while the content was changed. -/
def leftOver : List (Past (List (Stored × Stored))) :=
  [.call (.bindParams [.value (.integer 7)]), .call .step, .elsewhere []]

theorem bothColumns_drain :
    Machine.drain ⟨(), { program := bothColumns }, []⟩ 2 =
      some (.ok [[.integer (-1), utf8StrNew [0x61, 0xFF]], [.nil, strNew [0, 1]]]) := by
  have hfirst : (Machine.next ⟨(), { program := bothColumns }, []⟩).outcome =
      .ok (some [.integer (-1), utf8StrNew [0x61, 0xFF]]) := rfl
  have hsecond : (Machine.stepped ⟨(), { program := bothColumns }, []⟩).next.outcome =
      .ok (some [.nil, strNew [0, 1]]) := rfl
  have hlast : (Machine.stepped ⟨(), { program := bothColumns }, []⟩).stepped.next.outcome =
      .ok none := rfl
  rw [Machine.drain_succ hfirst 1, Machine.drain_succ hsecond 0, Machine.drain_last hlast]
  rfl

end Statement

end Sqlite3Ruby
