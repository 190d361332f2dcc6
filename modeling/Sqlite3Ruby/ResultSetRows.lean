import Sqlite3Ruby.EachLoops
import Sqlite3Ruby.Ruby.Cursor

/-!
# A result set is one cursor

The rows of an execution are got at one by one or in a loop, which may be left early, as arrays
or as hashes, through the statement or through any number of its result sets. All of them go
through the same rows, and `reset` goes back to the first.
-/

namespace Sqlite3Ruby.Query

variable {C : Type} {β : Type}

/-- `ResultSet#each_hash`. -/
def ResultSet.eachHash (rs : ResultSet) (block : β → Row → QueryM C β) (b : β) : QueryM C β :=
  CallM.whileSome (nextHash rs.stmt) block b

/-- `ResultSet#eof?`. -/
def ResultSet.eof (rs : ResultSet) : QueryM C Bool := done rs.stmt

/-- `ResultSet#reset`. -/
def ResultSet.reset (host : Host) (rs : ResultSet) (vars : List BindVar) : QueryM C Unit := do
  onStatement rs.stmt Statement.resetBang
  bindParams host rs.stmt vars

/-- Through which methods rows are got at: `next` and `each` of a `ResultSet` or a
`HashResultSet`, `next_hash` and `each_hash`, or `step` and `each` of the statement. -/
inductive Reader
  | resultSet (isHash : Bool)
  | hashes
  | statement

namespace Reader

/-- One row. -/
def next (stmt : Prepared) : Reader → QueryM C (Option Row)
  | resultSet isHash => ResultSet.next ⟨stmt, isHash⟩
  | hashes => nextHash stmt
  | statement => nextValues stmt >>= fun row => pure (row.map .array)

/-- The loop to the end. -/
def all (stmt : Prepared) : Reader → QueryM C (List Row)
  | resultSet isHash => ResultSet.toA ⟨stmt, isHash⟩
  | hashes => ResultSet.eachHash ⟨stmt, true⟩ pushRow []
  | statement => statementEach stmt (fun rows values => pushRow rows (.array values)) []

/-- The loop, with a block that breaks at the `n`-th row. -/
def first (stmt : Prepared) (n : Nat) : Reader → QueryM C (List Row)
  | resultSet isHash => CallM.whileFirst (ResultSet.next ⟨stmt, isHash⟩) n
  | hashes => CallM.whileFirst (nextHash stmt) n
  | statement => CallM.loopFirst (nextValues stmt) n >>= fun rows => pure (rows.map .array)

/-- How a row is handed out. -/
def row (columns : List String) (values : List Value) : Reader → Row
  | resultSet isHash => ResultSet.row ⟨⟨0, []⟩, isHash⟩ columns values
  | hashes => .hash (zipToH columns values)
  | statement => .array values

end Reader

/-- What is done with the rows. -/
inductive CursorOp
  | next (reader : Reader)
  | first (reader : Reader) (n : Nat)
  | all (reader : Reader)
  | eof
  | reset

/-- What comes of it. -/
inductive Handed
  | row (row : Option Row)
  | rows (rows : List Row)
  | eof (ended : Bool)
  | reset

namespace CursorOp

def run (host : Host) (stmt : Prepared) : CursorOp → QueryM C Handed
  | next reader => do
      let row ← reader.next stmt
      pure (.row row)
  | first reader n => do
      let rows ← reader.first stmt n
      pure (.rows rows)
  | all reader => do
      let rows ← reader.all stmt
      pure (.rows rows)
  | eof => do
      let ended ← ResultSet.eof ⟨stmt, false⟩
      pure (.eof ended)
  | reset => do
      ResultSet.reset host ⟨stmt, false⟩ []
      pure .reset

/-- What it is on a list with a place in it. -/
def onCursor (columns : List String) (rows : List (List Value)) (c : Cursor (List Value)) :
    CursorOp → Handed × Cursor (List Value)
  | next reader => (.row ((c.take 1).1.head?.map (reader.row columns)), (c.take 1).2)
  | first reader n => (.rows ((c.take n).1.map (reader.row columns)), (c.take n).2)
  | all reader => (.rows (c.takeAll.1.map (reader.row columns)), c.takeAll.2)
  | eof => (.eof c.ended, c)
  | reset => (.reset, ⟨rows, false⟩)

end CursorOp

/-- One after the other. -/
def runAllOps (host : Host) (stmt : Prepared) : List CursorOp → QueryM C (List Handed)
  | [] => pure []
  | op :: ops => do
      let handed ← op.run host stmt
      let rest ← runAllOps host stmt ops
      pure (handed :: rest)

def onCursorAll (columns : List String) (rows : List (List Value)) (c : Cursor (List Value)) :
    List CursorOp → List Handed × Cursor (List Value)
  | [] => ([], c)
  | op :: ops =>
      ((op.onCursor columns rows c).1 ::
          (onCursorAll columns rows (op.onCursor columns rows c).2 ops).1,
        (onCursorAll columns rows (op.onCursor columns rows c).2 ops).2)

/-! ## Rows through one reader -/

/-- The operation gets at rows through this reader, if it does, and does not go back. -/
def CursorOp.Uses (reader : Reader) : CursorOp → Prop
  | .next r => r = reader
  | .first r _ => r = reader
  | .all r => r = reader
  | .eof => True
  | .reset => False

def Handed.toRows : Handed → List Row
  | .row r => r.toList
  | .rows rs => rs
  | .eof _ => []
  | .reset => []

theorem onCursor_toRows {reader : Reader} (columns : List String) (rows : List (List Value))
    (c : Cursor (List Value)) {op : CursorOp} (h : op.Uses reader) :
    (op.onCursor columns rows c).1.toRows ++
        (op.onCursor columns rows c).2.rest.map (reader.row columns) =
      c.rest.map (reader.row columns) := by
  cases op with
  | next r =>
      obtain rfl : r = reader := h
      obtain ⟨_ | ⟨values, rest⟩, ended⟩ := c
      · rfl
      · rfl
  | first r n =>
      obtain rfl : r = reader := h
      change (c.take n).1.map (r.row columns) ++ (c.take n).2.rest.map (r.row columns) = _
      rw [← List.map_append, Cursor.take_append]
  | all r =>
      obtain rfl : r = reader := h
      exact List.append_nil _
  | eof => rfl
  | reset => exact h.elim

/-- What is handed out, with what is left, is the list. -/
theorem onCursorAll_toRows {reader : Reader} (columns : List String) (rows : List (List Value))
    (ops : List CursorOp) (c : Cursor (List Value)) (h : ∀ op ∈ ops, op.Uses reader) :
    (onCursorAll columns rows c ops).1.flatMap Handed.toRows ++
        (onCursorAll columns rows c ops).2.rest.map (reader.row columns) =
      c.rest.map (reader.row columns) := by
  induction ops generalizing c with
  | nil => rfl
  | cons op ops ih =>
      obtain ⟨hop, hops⟩ := List.forall_mem_cons.mp h
      have hrest := ih (op.onCursor columns rows c).2 hops
      have hfirst := onCursor_toRows columns rows c hop
      rw [onCursorAll, List.flatMap_cons, List.append_assoc]
      rw [hrest]
      exact hfirst

/-! ## The place of a statement -/

/-- The steps of the program leave a content with `K` one with `K`. -/
def Program.Keeps (program : Program C) (K : C → Prop) : Prop :=
  ∀ earlier now, K now.content → K (program.answer earlier now).content

section Place

variable {program : Program C} {bindings : Bindings} {K : C → Prop} {stmt : Prepared}
  {columns : List String}

/-- The statement has still to hand out what is left of the cursor. -/
def AtRow (stmt : Prepared) (program : Program C) (bindings : Bindings) (K : C → Prop)
    (c : Cursor (List Value)) (db : Database C) : Prop :=
  ∃ s, db.statement stmt.id = some s ∧ s.program = program ∧ s.bindings = bindings ∧
    K db.content ∧ s.doneP = c.ended ∧
    if c.ended then c.rest = [] else ∃ limit, (db.machine s).drain limit = some (.ok c.rest)

theorem atRow_done {db : Database C} {s : Statement C} (h : db.statement stmt.id = some s)
    (hprogram : s.program = program) (hbindings : s.bindings = bindings) (hK : K db.content)
    (hdone : s.doneP = true) : AtRow stmt program bindings K ⟨[], true⟩ db :=
  ⟨s, h, hprogram, hbindings, hK, hdone, rfl⟩

theorem drain_nil {m : Machine C} {limit : Nat} (h : m.drain limit = some (.ok [])) :
    m.next.outcome = .ok none := by
  cases hanswer : m.next.outcome with
  | ok row =>
      cases row with
      | none => rfl
      | some row =>
          cases limit with
          | zero => cases (Machine.drain_zero hanswer).symm.trans h
          | succ limit =>
              rw [Machine.drain_succ hanswer] at h
              obtain ⟨o, -, ho⟩ := Option.map_eq_some_iff.mp h
              cases o <;> cases ho
  | raise e => cases (Machine.drain_raise hanswer limit).symm.trans h
  | jump tag => exact absurd hanswer (Answer.outcome_ne_jump _ tag)

theorem drain_cons {m : Machine C} {limit : Nat} {row : List Value} {rest : List (List Value)}
    (h : m.drain limit = some (.ok (row :: rest))) :
    m.next.outcome = .ok (some row) ∧ ∃ limit, m.stepped.drain limit = some (.ok rest) := by
  cases hanswer : m.next.outcome with
  | ok row' =>
      cases row' with
      | none => cases (Machine.drain_last hanswer limit).symm.trans h
      | some row' =>
          cases limit with
          | zero => cases (Machine.drain_zero hanswer).symm.trans h
          | succ limit =>
              rw [Machine.drain_succ hanswer] at h
              obtain ⟨o, hstepped, ho⟩ := Option.map_eq_some_iff.mp h
              cases o with
              | ok rest' =>
                  obtain ⟨rfl, rfl⟩ := List.cons.inj (Outcome.ok.inj ho)
                  exact ⟨rfl, limit, hstepped⟩
              | raise e => cases ho
              | jump tag => cases ho
  | raise e => cases (Machine.drain_raise hanswer limit).symm.trans h
  | jump tag => exact absurd hanswer (Answer.outcome_ne_jump _ tag)

/-- Whatever steps the statement and hands out its rows follows the cursor. -/
theorem follows {α : Type} {next : QueryM C (Option α)} {g : List Value → α}
    (hnext : HandsOut stmt program.columns next g) (hkeeps : Program.Keeps program K) :
    CallM.Follows next g (AtRow stmt program bindings K) where
  nil := by
    rintro ended db ⟨s, h, rfl, rfl, hK, hdone, hrest⟩
    cases ended with
    | true => exact ⟨db, atRow_done h rfl rfl hK hdone, fun rounds => hnext.done rounds h rfl hdone⟩
    | false =>
        obtain ⟨limit, hdrain⟩ := hrest
        have hanswer := drain_nil hdrain
        refine ⟨db.put stmt.id ((db.machine s).stepped.setDoneP true),
          atRow_done (Database.statement_put h _) (Statement.stepped_program (db.machine s))
            (Statement.stepped_bindings (db.machine s)) ?_ rfl, fun rounds => ?_⟩
        · change K (db.machine s).stepped.content
          rw [stepped_content]
          exact hkeeps _ _ hK
        · have hrun := hnext rounds db s h rfl
          rw [Statement.step_last hdone hanswer] at hrun
          exact hrun
  cons := by
    rintro row rest ended db ⟨s, h, rfl, rfl, hK, hdone, hrest⟩
    cases ended with
    | true => cases hrest
    | false =>
        obtain ⟨limit, hdrain⟩ := hrest
        obtain ⟨hanswer, hstepped⟩ := drain_cons hdrain
        refine ⟨db.put stmt.id (db.machine s).stepped,
          ⟨_, Database.statement_put h _, Statement.stepped_program (db.machine s),
            Statement.stepped_bindings (db.machine s), ?_,
            (Statement.stepped_doneP (db.machine s)).trans hdone, hstepped⟩, fun rounds => ?_⟩
        · change K (db.machine s).stepped.content
          rw [stepped_content]
          exact hkeeps _ _ hK
        · have hrun := hnext rounds db s h rfl
          rw [Statement.step_row hdone hanswer] at hrun
          exact hrun

theorem atRow_start {db : Database C} {s : Statement C} (h : db.statement stmt.id = some s)
    (hK : K db.content) (hdone : s.doneP = false) {limit : Nat} {rows : List (List Value)}
    (hdrain : (db.machine s).drain limit = some (.ok rows)) :
    AtRow stmt s.program s.bindings K ⟨rows, false⟩ db :=
  ⟨s, h, rfl, rfl, hK, hdone, limit, hdrain⟩

/-! ## The operations -/

theorem nextHash_handsOut (stmt : Prepared) (columns : List String) :
    HandsOut (C := C) stmt columns (nextHash stmt) (fun values => .hash (zipToH columns values)) :=
  next_handsOut ⟨stmt, true⟩ columns

variable (hkeeps : Program.Keeps program K) {c : Cursor (List Value)} {db : Database C}
  (hat : AtRow stmt program bindings K c db) {rounds : Nat}

include hkeeps hat

theorem reader_next (reader : Reader) (rounds : Nat) :
    ∃ db', AtRow stmt program bindings K (c.take 1).2 db' ∧
      reader.next stmt rounds db =
        some (.ok ((c.take 1).1.head?.map (reader.row program.columns)), db') := by
  cases reader with
  | resultSet isHash =>
      obtain ⟨db', hat', hrun⟩ :=
        (follows (next_handsOut ⟨stmt, isHash⟩ program.columns) hkeeps).one hat rounds
      rw [List.head?_map] at hrun
      exact ⟨db', hat', hrun⟩
  | hashes =>
      obtain ⟨db', hat', hrun⟩ :=
        (follows (nextHash_handsOut stmt program.columns) hkeeps).one hat rounds
      rw [List.head?_map] at hrun
      exact ⟨db', hat', hrun⟩
  | statement =>
      obtain ⟨db', hat', hrun⟩ :=
        (follows (nextValues_handsOut stmt program.columns) hkeeps).one hat rounds
      rw [List.map_id] at hrun
      exact ⟨db', hat', CallM.bind_run_ok _ _ hrun⟩

theorem reader_first (reader : Reader) (n : Nat) (hrounds : c.rest.length ≤ rounds) :
    ∃ db', AtRow stmt program bindings K (c.take n).2 db' ∧
      reader.first stmt n rounds db =
        some (.ok ((c.take n).1.map (reader.row program.columns)), db') := by
  cases reader with
  | resultSet isHash =>
      exact (follows (next_handsOut ⟨stmt, isHash⟩ program.columns) hkeeps).whileUpTo hat n hrounds
  | hashes => exact (follows (nextHash_handsOut stmt program.columns) hkeeps).whileUpTo hat n hrounds
  | statement =>
      obtain ⟨db', hat', hrun⟩ :=
        (follows (nextValues_handsOut stmt program.columns) hkeeps).loopUpTo hat n hrounds
      rw [List.map_id] at hrun
      exact ⟨db', hat', CallM.bind_run_ok _ _ hrun⟩

theorem reader_all (reader : Reader) (hrounds : c.rest.length ≤ rounds) :
    ∃ db', AtRow stmt program bindings K c.takeAll.2 db' ∧
      reader.all stmt rounds db =
        some (.ok (c.takeAll.1.map (reader.row program.columns)), db') := by
  cases reader with
  | resultSet isHash =>
      exact (follows (next_handsOut ⟨stmt, isHash⟩ program.columns) hkeeps).whileAll hat hrounds id
  | hashes => exact (follows (nextHash_handsOut stmt program.columns) hkeeps).whileAll hat hrounds id
  | statement =>
      exact (follows (nextValues_handsOut stmt program.columns) hkeeps).loopAll hat hrounds
        Row.array

omit hkeeps in
theorem eof_run (rounds : Nat) :
    ResultSet.eof ⟨stmt, false⟩ rounds db = some (.ok c.ended, db) := by
  obtain ⟨s, h, -, -, -, hdone, -⟩ := hat
  rw [ResultSet.eof, done_run h, hdone]

omit hkeeps in
/-- `reset` goes back to the rows of an execution from the start. -/
theorem reset_run (host : Host) {rows : List (List Value)} (rounds : Nat)
    (hrows : ∀ content, K content →
      ∃ limit, program.drain bindings limit [] content = some (.ok rows)) :
    ∃ db', AtRow stmt program bindings K ⟨rows, false⟩ db' ∧
      ResultSet.reset host ⟨stmt, false⟩ [] rounds db = some (.ok (), db') := by
  obtain ⟨s, h, rfl, rfl, hK, -, -⟩ := hat
  have hput := Database.statement_put h ((db.machine s).reset.setDoneP false)
  refine ⟨db.put stmt.id ((db.machine s).reset.setDoneP false),
    ⟨_, hput, rfl, rfl, hK, rfl, hrows _ hK⟩, ?_⟩
  have hreset : onStatement stmt Statement.resetBang rounds db =
      some (.ok (), db.put stmt.id ((db.machine s).reset.setDoneP false)) := onStatement_run h _ _
  have hbind : bindParams host stmt [] rounds
      (db.put stmt.id ((db.machine s).reset.setDoneP false)) =
        some (.ok (), db.put stmt.id ((db.machine s).reset.setDoneP false)) := by
    rw [bindParams, CallM.get_bind, hput, if_neg (by simp), onStatement_run hput]
    exact congrArg (fun db => some (Outcome.ok (), db)) (Database.put_machine hput)
  rw [ResultSet.reset, CallM.bind_run_ok _ _ hreset]
  exact hbind

/-- An operation is what it is on the cursor. -/
theorem op_run (host : Host) {rows : List (List Value)} (op : CursorOp)
    (hrows : op = .reset → ∀ content, K content →
      ∃ limit, program.drain bindings limit [] content = some (.ok rows))
    (hrounds : c.rest.length ≤ rounds) :
    ∃ db', AtRow stmt program bindings K (op.onCursor program.columns rows c).2 db' ∧
      op.run host stmt rounds db = some (.ok (op.onCursor program.columns rows c).1, db') := by
  cases op with
  | next reader =>
      obtain ⟨db', hat', hrun⟩ := reader_next hkeeps hat reader rounds
      exact ⟨db', hat', CallM.bind_run_ok _ _ hrun⟩
  | first reader n =>
      obtain ⟨db', hat', hrun⟩ := reader_first hkeeps hat reader n hrounds
      exact ⟨db', hat', CallM.bind_run_ok _ _ hrun⟩
  | all reader =>
      obtain ⟨db', hat', hrun⟩ := reader_all hkeeps hat reader hrounds
      exact ⟨db', hat', CallM.bind_run_ok _ _ hrun⟩
  | eof => exact ⟨db, hat, CallM.bind_run_ok _ _ (eof_run hat rounds)⟩
  | reset =>
      obtain ⟨db', hat', hrun⟩ := reset_run hat host rounds (hrows rfl)
      exact ⟨db', hat', CallM.bind_run_ok _ _ hrun⟩

omit hkeeps hat in
/-- No more than all the rows are left after an operation. -/
theorem length_onCursor {rows : List (List Value)} (hc : c.rest.length ≤ rows.length)
    (op : CursorOp) : (op.onCursor columns rows c).2.rest.length ≤ rows.length := by
  cases op with
  | next reader => exact (List.drop_sublist _ _).length_le.trans hc
  | first reader n => exact (List.drop_sublist _ _).length_le.trans hc
  | all reader => exact Nat.zero_le _
  | eof => exact hc
  | reset => exact le_rfl

omit hat in
/-- A run of operations is what it is on the cursor. -/
theorem runAllOps_run (host : Host) {rows : List (List Value)} (ops : List CursorOp)
    (hrows : CursorOp.reset ∈ ops → ∀ content, K content →
      ∃ limit, program.drain bindings limit [] content = some (.ok rows))
    (hrounds : rows.length ≤ rounds) {c : Cursor (List Value)} (hc : c.rest.length ≤ rows.length)
    {db : Database C} (hat : AtRow stmt program bindings K c db) :
    ∃ db', AtRow stmt program bindings K (onCursorAll program.columns rows c ops).2 db' ∧
      runAllOps host stmt ops rounds db =
        some (.ok (onCursorAll program.columns rows c ops).1, db') := by
  induction ops generalizing c db with
  | nil => exact ⟨db, hat, rfl⟩
  | cons op ops ih =>
      have hop : op = .reset → ∀ content, K content →
          ∃ limit, program.drain bindings limit [] content = some (.ok rows) := by
        rintro rfl
        exact hrows List.mem_cons_self
      obtain ⟨db', hat', hrun⟩ := op_run hkeeps hat host op hop (hc.trans hrounds)
      obtain ⟨db'', hat'', hrest⟩ :=
        ih (fun hmem => hrows (List.mem_cons_of_mem op hmem)) (length_onCursor hc op) hat'
      refine ⟨db'', hat'', ?_⟩
      rw [runAllOps, CallM.bind_run_ok _ _ hrun, CallM.bind_run_ok _ _ hrest]
      rfl

end Place

/-- However the rows of an execution are got at, they are gone through as one list: in order, none
left out and none twice, and from the first again after a `reset` (of a statement that
changes nothing). -/
theorem result_set_is_cursor (host : Host) (stmt : Prepared) {db : Database C} {s : Statement C}
    (h : db.statement stmt.id = some s) (hready : s.vm = .ready) (hdone : s.doneP = false)
    {limit : Nat} {rows : List (List Value)} (hdrain : (db.machine s).drain limit = some (.ok rows))
    (ops : List CursorOp)
    (hsteady : CursorOp.reset ∈ ops →
      ∀ earlier now, (s.program.answer earlier now).content = now.content)
    {rounds : Nat} (hrounds : rows.length ≤ rounds) :
    ∃ db' handed, runAllOps host stmt ops rounds db = some (.ok handed, db') ∧
      handed = (onCursorAll s.program.columns rows ⟨rows, false⟩ ops).1 ∧
      ∀ reader, (∀ op ∈ ops, op.Uses reader) →
        handed.flatMap Handed.toRows <+: rows.map (reader.row s.program.columns) := by
  have hprefix : ∀ reader, (∀ op ∈ ops, op.Uses reader) →
      (onCursorAll s.program.columns rows ⟨rows, false⟩ ops).1.flatMap Handed.toRows <+:
        rows.map (reader.row s.program.columns) := fun reader huses =>
    ⟨_, onCursorAll_toRows s.program.columns rows ops ⟨rows, false⟩ huses⟩
  by_cases hreset : CursorOp.reset ∈ ops
  · have hkeeps : Program.Keeps s.program (· = db.content) := fun earlier now hnow =>
      (hsteady hreset earlier now).trans hnow
    have hrows : ∀ content, content = db.content →
        ∃ limit, s.program.drain s.bindings limit [] content = some (.ok rows) := by
      rintro content rfl
      rw [Machine.drain, Database.machine, hready] at hdrain
      exact ⟨limit, hdrain⟩
    obtain ⟨db', -, hrun⟩ := runAllOps_run hkeeps host ops (fun _ => hrows) hrounds le_rfl
      (atRow_start h rfl hdone hdrain)
    exact ⟨db', _, hrun, rfl, hprefix⟩
  · have hkeeps : Program.Keeps s.program (fun _ => True) := fun _ _ _ => trivial
    obtain ⟨db', -, hrun⟩ := runAllOps_run hkeeps host ops (fun hmem => absurd hmem hreset) hrounds
      le_rfl (atRow_start h trivial hdone hdrain)
    exact ⟨db', _, hrun, rfl, hprefix⟩

/-- Two rows, got at in three ways, from the first again after `reset`. -/
def twoRows : Program Unit where
  columns := ["a"]
  parameterCount := 0
  parameterIndex _ := 0
  answer earlier _ :=
    match earlier.length with
    | 0 => .row none [.integer 1] ()
    | 1 => .row none [.integer 2] ()
    | _ => .done none ()
  rowless h := by cases h

def readTwoRows : List CursorOp :=
  [.next (.resultSet true), .first .statement 1, .eof, .all .hashes, .eof, .reset,
    .next .statement]

theorem drain_twoRows :
    Machine.drain ⟨(), { program := twoRows }, []⟩ 2 =
      some (.ok [[.integer 1], [.integer 2]]) := by
  have hfirst : (Machine.next ⟨(), { program := twoRows }, []⟩).outcome =
      .ok (some [.integer 1]) := rfl
  have hsecond : (Machine.stepped ⟨(), { program := twoRows }, []⟩).next.outcome =
      .ok (some [.integer 2]) := rfl
  have hlast : (Machine.stepped ⟨(), { program := twoRows }, []⟩).stepped.next.outcome =
      .ok none := rfl
  rw [Machine.drain_succ hfirst 1, Machine.drain_succ hsecond 0, Machine.drain_last hlast]
  rfl

theorem twoRows_is_cursor :
    ∃ db' handed, runAllOps Statement.littleHost ⟨0, []⟩ readTwoRows 2
        ((newDatabase ()).push (some { program := twoRows })) = some (.ok handed, db') ∧
      handed = [.row (some (.hash [("a", .integer 1)])), .rows [.array [.integer 2]], .eof false,
        .rows [], .eof true, .reset, .row (some (.array [.integer 1]))] ∧
      ∀ reader, (∀ op ∈ readTwoRows, CursorOp.Uses reader op) →
        handed.flatMap Handed.toRows <+:
          [[Value.integer 1], [Value.integer 2]].map (Reader.row ["a"] · reader) := by
  have h : ((newDatabase ()).push (some { program := twoRows })).statement 0 =
      some { program := twoRows } := rfl
  exact result_set_is_cursor Statement.littleHost ⟨0, []⟩ h rfl rfl drain_twoRows readTwoRows
    (fun _ _ _ => rfl) le_rfl

end Sqlite3Ruby.Query
