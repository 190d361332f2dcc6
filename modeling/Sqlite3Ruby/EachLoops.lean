import Sqlite3Ruby.QueryPaths

/-!
# The two loops over the rows

`Statement#each` is a `loop` that it leaves when the statement is done, and
`ResultSet#each` a `while`. A `loop` rescues a `StopIteration`, from a step or from its block.
The first yields arrays, and the second the rows of its result set, which with
`results_as_hash` are hashes.
-/

namespace Sqlite3Ruby.Query

variable {C : Type} {β : Type}

/-- `done?` after a step is true exactly when the step has answered `nil`. -/
theorem nextValues_eq (stmt : Prepared) : nextValues (C := C) stmt = step stmt := by
  funext rounds db
  rw [nextValues]
  cases h : db.statement stmt.id with
  | none =>
      have hrun : step stmt rounds db = some (.raise closedStatement, db) :=
        onStatement_closed h _ rounds
      rw [CallM.bind_run_raise _ hrun, hrun]
  | some s =>
      rw [← nextValues, nextValues_handsOut stmt s.program.columns rounds db s h rfl, step_run h]
      cases (Statement.step (db.machine s)).1 with
      | ok row => rw [Outcome.map_ok, Option.map_id, id]
      | raise e => rfl
      | jump tag => rfl

theorem step_handsOut (stmt : Prepared) (columns : List String) :
    HandsOut (C := C) stmt columns (step stmt) id :=
  nextValues_eq stmt ▸ nextValues_handsOut stmt columns

theorem next_eq (stmt : Prepared) :
    ResultSet.next (C := C) ⟨stmt, false⟩ = step stmt >>= fun row => pure (row.map .array) := rfl

section Each

variable (stmt : Prepared) (rs : ResultSet) (block : β → Row → QueryM C β) (b : β) (rounds : Nat)
  (db : Database C)

/-- `Statement#each`, whose rows are arrays. -/
def eachOfStatement : QueryM C β := statementEach stmt (fun b values => block b (.array values)) b

/-- The rows that `Statement#each` yields to its block. -/
def yieldedByStatement : Option (List Row) :=
  (CallM.loopSome (CallM.beside (nextValues stmt))
    (fun b values => CallM.recorded block b (.array values)) b rounds (db, [])).map (·.2.2)

/-- The rows that `ResultSet#each` yields to its block. -/
def yieldedByResultSet : Option (List Row) :=
  (CallM.whileSome (CallM.beside rs.next) (CallM.recorded block) b rounds (db, [])).map (·.2.2)

/-- The steps of the statement and the calls of the block, one after the other. -/
def EachCourse (rows : List (List Value)) (x : CallM.LoopExit β) (db' : Database C) : Prop :=
  CallM.Course (step stmt) (fun b values => block b (.array values)) rounds rounds b db rows x db'

/-- The two loops yield the same rows and end in the same way. -/
structure SameEach : Prop where
  yielded : yieldedByStatement rs.stmt block b rounds db = yieldedByResultSet rs block b rounds db
  ends : eachOfStatement rs.stmt block b rounds db = rs.each block b rounds db
  /-- An exception leaves both. -/
  raised : ∀ {rows b' e db'}, EachCourse rs.stmt block b rounds db rows (.raise b' e) db' →
    eachOfStatement rs.stmt block b rounds db = some (.raise e, db') ∧
      rs.each block b rounds db = some (.raise e, db')
  /-- Neither returns before the last row. -/
  whole : ∀ {b' db'}, eachOfStatement rs.stmt block b rounds db = some (.ok b', db') ∨
      rs.each block b rounds db = some (.ok b', db') →
    ∃ rows, EachCourse rs.stmt block b rounds db rows (.last b') db'

/-- No step and no call of the block raises a `StopIteration`. -/
def NeverStops : Prop :=
  ∀ rows b' e db', EachCourse stmt block b rounds db rows (.raise b' e) db' →
    e.isStopIteration = false

/-- The result set hands out arrays, or the statement has no row. -/
def HandsArrays : Prop :=
  rs.isHash = false ∨ ∀ values db', step rs.stmt rounds db ≠ some (.ok (some values), db')

end Each

section Loops

variable {stmt : Prepared} {rs : ResultSet} {block : β → Row → QueryM C β} {b : β} {rounds : Nat}
  {db db' : Database C} {rows : List (List Value)} {x : CallM.LoopExit β}

theorem eachOfStatement_run (h : EachCourse stmt block b rounds db rows x db') :
    eachOfStatement stmt block b rounds db = some (x.loopOutcome, db') := by
  rw [eachOfStatement, statementEach, nextValues_eq]
  exact h.loopRounds

theorem yieldedByStatement_run (h : EachCourse stmt block b rounds db rows x db') :
    yieldedByStatement stmt block b rounds db = some (rows.map .array) := by
  have hrecorded := CallM.Course.recorded h []
  rw [yieldedByStatement, nextValues_eq, CallM.loopSome, hrecorded.loopRounds]
  rfl

theorem yieldedByResultSet_run {handed : List Row}
    (h : CallM.Course rs.next block rounds rounds b db handed x db') :
    yieldedByResultSet rs block b rounds db = some handed := by
  have hrecorded := CallM.Course.recorded (f := id) h []
  rw [List.nil_append, List.map_id] at hrecorded
  exact congrArg (Option.map (·.2.2)) hrecorded.whileRounds

theorem eachOfStatement_eq_none
    (h : CallM.loopRounds (step stmt) (fun b values => block b (.array values)) rounds b rounds db =
      none) : eachOfStatement stmt block b rounds db = none := by
  rw [eachOfStatement, statementEach, nextValues_eq]
  exact h

/-- What `next` makes of a step. -/
theorem next_of_step (rs : ResultSet) {o : Outcome (Option (List Value))}
    (h : step rs.stmt rounds db = some (o, db')) :
    ∃ columns, rs.next rounds db = some (Option.map (rs.row columns) <$> o, db') := by
  cases hs : db.statement rs.stmt.id with
  | some s =>
      refine ⟨s.program.columns, ?_⟩
      rw [step_run hs] at h
      obtain ⟨rfl, rfl⟩ := Prod.mk.inj (Option.some.inj h)
      exact next_handsOut rs _ rounds db s hs rfl
  | none =>
      have hclosed : step rs.stmt rounds db = some (.raise closedStatement, db) :=
        onStatement_closed hs _ rounds
      rw [hclosed] at h
      obtain ⟨rfl, rfl⟩ := Prod.mk.inj (Option.some.inj h)
      refine ⟨[], ?_⟩
      rw [ResultSet.next]
      split
      · exact CallM.bind_run_raise _ hclosed
      · exact CallM.bind_run_raise _ hclosed

/-- A step has a result, open or closed. -/
theorem step_total (stmt : Prepared) (rounds : Nat) (db : Database C) :
    ∃ o db', step stmt rounds db = some (o, db') := by
  cases hs : db.statement stmt.id with
  | some s => exact ⟨_, _, step_run hs rounds⟩
  | none => exact ⟨_, _, onStatement_closed hs _ rounds⟩

/-- Without a `StopIteration` the two loops are the same when they go through the same rows. -/
theorem sameEach_of_courses (hnever : NeverStops rs.stmt block b rounds db)
    (hcourse : EachCourse rs.stmt block b rounds db rows x db')
    (hcourse' : CallM.Course rs.next block rounds rounds b db (rows.map .array) x db') :
    SameEach rs block b rounds db := by
  have hstatement := eachOfStatement_run hcourse
  have hresultSet : rs.each block b rounds db = some (x.whileOutcome, db') := hcourse'.whileRounds
  have hends : x.loopOutcome = x.whileOutcome := by
    cases x with
    | last b' => rfl
    | raise b' e => exact if_neg (by simp [hnever rows b' e db' hcourse])
    | jump tag => rfl
  constructor
  · rw [yieldedByStatement_run hcourse, yieldedByResultSet_run hcourse']
  · rw [hstatement, hresultSet, hends]
  · intro rows' b' e db'' hraise
    have hraised : eachOfStatement rs.stmt block b rounds db = some (.raise e, db'') := by
      rw [eachOfStatement_run hraise, CallM.LoopExit.loopOutcome,
        if_neg (by simp [hnever rows' b' e db'' hraise])]
    refine ⟨hraised, ?_⟩
    rw [hresultSet, ← hends, ← hstatement, hraised]
  · intro b' db'' hreturns
    rw [hstatement, hresultSet, hends, or_self] at hreturns
    obtain ⟨hout, rfl⟩ := Prod.mk.inj (Option.some.inj hreturns)
    cases x with
    | last c =>
        obtain rfl := Outcome.ok.inj hout
        exact ⟨rows, hcourse⟩
    | raise c e => cases hout
    | jump tag => cases hout

/-- A result set that hands out arrays is a loop over the steps. -/
theorem sameEach_of_arrays (hash : rs.isHash = false)
    (hends : eachOfStatement rs.stmt block b rounds db ≠ none ∨ rs.each block b rounds db ≠ none)
    (hnever : NeverStops rs.stmt block b rounds db) : SameEach rs block b rounds db := by
  obtain ⟨stmt, isHash⟩ := rs
  obtain rfl : isHash = false := hash
  rcases CallM.course_total (step stmt) (fun b values => block b (.array values)) rounds rounds b db
    with ⟨rows, x, db', hcourse⟩ | ⟨hwhile, hloop⟩
  · exact sameEach_of_courses hnever hcourse (CallM.Course.mapped hcourse)
  · have hresultSet : ResultSet.each ⟨stmt, false⟩ block b rounds db = none := by
      rw [ResultSet.each, CallM.whileSome, next_eq, CallM.whileRounds_map]
      exact hwhile
    rcases hends with hne | hne
    · exact absurd (eachOfStatement_eq_none hloop) hne
    · exact absurd hresultSet hne

/-- Without rows the result set makes nothing of its own. -/
theorem sameEach_of_noRow
    (hnone : ∀ values db', step rs.stmt rounds db ≠ some (.ok (some values), db'))
    (hnever : NeverStops rs.stmt block b rounds db) : SameEach rs block b rounds db := by
  obtain ⟨o, db', hstep⟩ := step_total rs.stmt rounds db
  obtain ⟨columns, hnext⟩ := next_of_step rs hstep
  cases o with
  | ok row =>
      cases row with
      | none => exact sameEach_of_courses hnever (.last hstep) (.last hnext)
      | some values => exact absurd hstep (hnone values db')
  | raise e => exact sameEach_of_courses hnever (.nextRaise hstep) (.nextRaise hnext)
  | jump tag => exact sameEach_of_courses hnever (.nextJump hstep) (.nextJump hnext)

/-- A hash is no array. -/
theorem not_sameEach_of_hash (hash : rs.isHash = true) {values : List Value}
    (hstep : step rs.stmt rounds db = some (.ok (some values), db'))
    (hends : eachOfStatement rs.stmt block b rounds db ≠ none ∨ rs.each block b rounds db ≠ none) :
    ¬ SameEach rs block b rounds db := by
  intro hsame
  have hboth : eachOfStatement rs.stmt block b rounds db ≠ none ∧
      rs.each block b rounds db ≠ none := by
    rw [hsame.ends, or_self] at hends
    exact ⟨hsame.ends ▸ hends, hends⟩
  rcases CallM.course_total (step rs.stmt) (fun b values => block b (.array values)) rounds rounds
    b db with ⟨rows, x, t, hcourse⟩ | ⟨-, hloop⟩
  · rcases CallM.course_total rs.next block rounds rounds b db with
      ⟨handed, x', t', hcourse'⟩ | ⟨hwhile, -⟩
    · obtain ⟨columns, hnext⟩ := next_of_step rs hstep
      obtain ⟨rest, rfl⟩ := hcourse.head hstep
      obtain ⟨rest', rfl⟩ := hcourse'.head hnext
      have hyielded := hsame.yielded
      rw [yieldedByStatement_run hcourse, yieldedByResultSet_run hcourse', ResultSet.row,
        if_pos hash] at hyielded
      cases hyielded
    · exact hboth.2 hwhile
  · exact hboth.1 (eachOfStatement_eq_none hloop)

/-- Where one of the two loops comes to an end, they are the same exactly when nothing in them
raises a `StopIteration` and the result set hands out arrays, or nothing. -/
theorem each_loops_same_iff (rs : ResultSet) (block : β → Row → QueryM C β) (b : β)
    (rounds : Nat) (db : Database C)
    (hends : eachOfStatement rs.stmt block b rounds db ≠ none ∨ rs.each block b rounds db ≠ none) :
    SameEach rs block b rounds db ↔
      NeverStops rs.stmt block b rounds db ∧ HandsArrays rs rounds db := by
  constructor
  · intro hsame
    constructor
    · intro rows b' e db' hcourse
      by_contra hstop
      have hreturns := eachOfStatement_run hcourse
      rw [(hsame.raised hcourse).1, CallM.LoopExit.loopOutcome, if_pos (by simpa using hstop)]
        at hreturns
      cases hreturns
    · by_contra hhash
      rw [HandsArrays, not_or, Bool.not_eq_false] at hhash
      obtain ⟨hash, hrow⟩ := hhash
      push Not at hrow
      obtain ⟨values, db', hstep⟩ := hrow
      exact not_sameEach_of_hash hash hstep hends hsame
  · rintro ⟨hnever, hash | hnone⟩
    · exact sameEach_of_arrays hash hends hnever
    · exact sameEach_of_noRow hnone hnever

end Loops

/-- `select 1 as a`, before its first step. -/
def oneRowDatabase : Database Unit :=
  (newDatabase ()).push (some { program := oneRow ["a"] (by decide) [.integer 1] })

theorem pushRow_sameEach : SameEach ⟨⟨0, []⟩, false⟩ pushRow [] 1 oneRowDatabase := by
  have hreturns : ResultSet.each ⟨⟨0, []⟩, false⟩ pushRow [] 1 oneRowDatabase =
      some (.ok [.array [.integer 1]], _) := rfl
  apply (each_loops_same_iff ⟨⟨0, []⟩, false⟩ pushRow [] 1 oneRowDatabase
    (Or.inr (by simp [hreturns]))).mpr
  refine ⟨fun rows b' e db' hcourse => ?_, Or.inl rfl⟩
  have hraises : ResultSet.each ⟨⟨0, []⟩, false⟩ pushRow [] 1 oneRowDatabase = some (.raise e, db') :=
    (CallM.Course.mapped hcourse).whileRounds
  cases hreturns.symm.trans hraises

/-- A block that raises a `StopIteration`. -/
def stopBlock (_ : Unit) (_ : Row) : QueryM Unit Unit :=
  CallM.lift (.raise ⟨.StopIteration, "iteration reached an end"⟩)

/-- `Statement#each` returns at the first of the rows, and `ResultSet#each` raises. -/
theorem stopBlock_differs : ¬ SameEach ⟨⟨0, []⟩, false⟩ stopBlock () 1 oneRowDatabase := by
  intro hsame
  have hcourse : EachCourse ⟨0, []⟩ stopBlock () 1 oneRowDatabase
      [[.integer 1]] (.raise () ⟨.StopIteration, "iteration reached an end"⟩) _ :=
    .bodyRaise rfl rfl
  have hreturns := eachOfStatement_run hcourse
  rw [(hsame.raised hcourse).1] at hreturns
  cases hreturns

end Sqlite3Ruby.Query
