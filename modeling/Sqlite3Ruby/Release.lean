import Mathlib.Data.Set.Insert
import Sqlite3Ruby.Unwinding.Query

/-!
# The statements that a query leaves open

`prepare` with a block finalizes its statement on every exit. `query` and
`table_info` prepare without a block: the first runs the statement before it
comes to its `ensure`, the second has none. A callback may unwind the `sqlite3_finalize`
that all of them come to, and `sqlite3_prepare_v2` before there is a statement to close.

## Implementation notes

A block is taken to leave the open statements of its caller as they were, apart
from the statement that it is handed.
-/

namespace Sqlite3Ruby.Query

variable {C : Type} {α β : Type}

/-- The statements that are not finalized. -/
def Database.opened (db : Database C) : Set Nat := {id | (db.statement id).isSome = true}

/-- Those but one. -/
def Database.others (own : Nat) (db : Database C) : Set Nat := db.opened \ {own}

@[simp] theorem Database.mem_opened {db : Database C} {id : Nat} :
    id ∈ db.opened ↔ (db.statement id).isSome = true := Iff.rfl

theorem Database.length_notMem_opened (db : Database C) : db.statements.length ∉ db.opened := by
  simp [Database.statement]

theorem Database.opened_put {db : Database C} {id : Nat} {s : Statement C}
    (h : db.statement id = some s) (m : Machine C) : (db.put id m).opened = db.opened := by
  ext id'
  by_cases hid : id' = id
  · subst hid
    simp [Database.statement_put h m, h]
  · simp [Database.statement_put_of_ne db hid m]

theorem Database.others_push (db : Database C) (statement : Option (Statement C)) :
    (db.push statement).others db.statements.length = db.opened := by
  ext id
  by_cases hid : id = db.statements.length
  · subst hid
    simp [Database.others, Database.statement]
  · simp [Database.others, hid, Database.statement_push_of_ne db statement hid]

theorem Database.opened_push_none (db : Database C) : (db.push none).opened = db.opened := by
  rw [← db.others_push none, Database.others, Set.sdiff_singleton_eq_self]
  simp

theorem Database.opened_finalize (db : Database C) (id : Nat) :
    (db.finalize id).opened = db.others id := by
  ext id'
  by_cases hid : id' = id
  · simp [Database.others, hid]
  · simp [Database.others, hid, Database.statement_finalize_of_ne db hid]

/-! ## What is kept by the parts of a query -/

abbrev KeepsOpened (m : QueryM C α) : Prop := CallM.Keeps Database.opened m

abbrev KeepsOthers (own : Nat) (m : QueryM C α) : Prop := CallM.Keeps (Database.others own) m

theorem KeepsOpened.others {m : QueryM C α} (h : KeepsOpened m) (own : Nat) : KeepsOthers own m :=
  h.comp (· \ {own})

theorem onStatement_keeps (stmt : Prepared) (method : StatementM C α) :
    KeepsOpened (onStatement stmt method) := by
  intro rounds db o db' hrun
  cases h : db.statement stmt.id with
  | none =>
      rw [onStatement_closed h] at hrun
      obtain ⟨-, rfl⟩ := Prod.mk.inj (Option.some.inj hrun)
      rfl
  | some s =>
      rw [onStatement_run h] at hrun
      obtain ⟨-, rfl⟩ := Prod.mk.inj (Option.some.inj hrun)
      exact Database.opened_put h _

theorem bindParams_keeps (host : Host) (stmt : Prepared) (vars : List BindVar) :
    KeepsOpened (C := C) (bindParams host stmt vars) := by
  refine CallM.keeps_get.bind fun db => ?_
  split
  · exact CallM.keeps_pure ()
  · exact onStatement_keeps stmt _

theorem buildResultSet_keeps (stmt : Prepared) : KeepsOpened (C := C) (buildResultSet stmt) :=
  CallM.keeps_get.bind fun _ => CallM.keeps_pure _

theorem pushRow_keeps (rows : List α) (row : α) : KeepsOpened (C := C) (pushRow rows row) :=
  CallM.keeps_pure _

theorem tableInfoRow_keeps (tweak : List (String × Value) → Outcome (List (String × Value)))
    {block : β → List (String × Value) → QueryM C β} (h : ∀ b row, KeepsOpened (block b row))
    (columns : List String) (b : β) (row : List Value) :
    KeepsOpened (tableInfoRow tweak block columns b row) :=
  (CallM.keeps_lift _).bind fun newRow => h b newRow

namespace Unwinding

variable (u : Unwinding C)

theorem statementExecute_keeps (host : Host) (stmt : Prepared) (vars : List BindVar) :
    KeepsOpened (statementExecute u host stmt vars) :=
  (onStatement_keeps stmt _).bind fun _ => buildResultSet_keeps stmt

theorem nextValues_keeps (stmt : Prepared) : KeepsOpened (nextValues u stmt) := by
  refine (onStatement_keeps stmt _).bind fun val => (onStatement_keeps stmt _).bind fun done => ?_
  split
  · exact CallM.keeps_pure none
  · exact CallM.keeps_pure val

theorem nextHash_keeps (stmt : Prepared) : KeepsOpened (nextHash u stmt) := by
  refine (onStatement_keeps stmt _).bind fun row => (onStatement_keeps stmt _).bind fun done => ?_
  split
  · exact CallM.keeps_pure none
  · refine (onStatement_keeps stmt _).bind fun columns => ?_
    cases row with
    | none => exact CallM.keeps_lift _
    | some row => exact CallM.keeps_pure _

theorem next_keeps (rs : ResultSet) : KeepsOpened (next u rs) := by
  rw [next]
  split
  · exact nextHash_keeps u rs.stmt
  · exact (onStatement_keeps rs.stmt _).bind fun row => CallM.keeps_pure _

theorem each_keeps (rs : ResultSet) {block : β → Row → QueryM C β}
    (h : ∀ b row, KeepsOpened (block b row)) (b : β) : KeepsOpened (each u rs block b) :=
  CallM.Keeps.whileSome (next_keeps u rs) h b

/-! ## Preparing -/

/-- `sqlite3_prepare_v2` comes back, or had no statement yet when it was unwound. -/
def LeavesNothing (host : Host) (sql : RString) (db : Database C) : Prop :=
  db.isOpen = true → ∀ text, strEncodeUtf8 host sql = .ok text → ∀ e content begun,
    u.prepare (sqlRead text) db.content = some (e, content, begun) → begun = none

/-- `prepare` makes a statement of the text. -/
def Prepares (host : Host) (compile : List UInt8 → C → Compiled C) (sql : RString)
    (db : Database C) (program : Program C) : Prop :=
  Compiles host compile db sql program ∧
    ∀ text, strEncodeUtf8 host sql = .ok text → u.prepare (sqlRead text) db.content = none

/-- What `prepare` does with a text: a statement of its own, an object without one, or an
exit. -/
inductive PrepareRun (host : Host) (compile : List UInt8 → C → Compiled C) (sql : RString)
    (db : Database C) : Outcome Prepared → Database C → Prop
  | statement {program stmt} (hprepares : Prepares u host compile sql db program)
      (hid : stmt.id = db.statements.length) (hnothing : LeavesNothing u host sql db) :
      PrepareRun host compile sql db (.ok stmt) (db.push (some { program }))
  | noStatement {stmt} (hnone : ∀ program, ¬ Prepares u host compile sql db program)
      (hid : stmt.id = db.statements.length) (hnothing : LeavesNothing u host sql db) :
      PrepareRun host compile sql db (.ok stmt) (db.push none)
  | exit {o db'} (hnone : ∀ program, ¬ Prepares u host compile sql db program)
      (ho : ¬ o.Returns) (hopened : db'.opened = db.opened ↔ LeavesNothing u host sql db) :
      PrepareRun host compile sql db o db'

variable {host : Host} {compile : List UInt8 → C → Compiled C} {sql : RString} {rounds : Nat}
  {db db' : Database C}

variable {u} in
theorem Prepares.unique {program program' : Program C}
    (h : Prepares u host compile sql db program)
    (h' : Prepares u host compile sql db program') : program = program' := h.1.unique h'.1

theorem opened_push_map (db : Database C) (begun : Option (Program C)) :
    (db.push (begun.map fun program => { program })).opened = db.opened ↔ begun = none := by
  cases begun with
  | none => exact iff_of_true db.opened_push_none rfl
  | some program =>
      refine iff_of_false (fun heq => ?_) (by simp)
      have hmem : db.statements.length ∈ (db.push (some { program })).opened := by simp
      rw [Option.map_some] at heq
      rw [heq] at hmem
      exact db.length_notMem_opened hmem

theorem prepare_run (host : Host) (compile : List UInt8 → C → Compiled C) (sql : RString)
    (rounds : Nat) (db : Database C) :
    ∃ o db', prepare u host compile sql rounds db = some (o, db') ∧
      PrepareRun u host compile sql db o db' := by
  rw [prepare, CallM.get_bind]
  cases hopen : db.isOpen with
  | false =>
      refine ⟨_, _, rfl, .exit (fun program h => ?_) (Outcome.not_returns_raise _)
        (iff_of_true rfl fun h => ?_)⟩
      · exact absurd (hopen.symm.trans h.1.1) Bool.false_ne_true
      · exact absurd (hopen.symm.trans h) Bool.false_ne_true
  | true =>
      rw [if_pos rfl]
      have hexit {o : Outcome (List UInt8)} (htext : strEncodeUtf8 host sql = o)
          (ho : ¬ o.Returns) {o' : Outcome Prepared} (ho' : ¬ o'.Returns) :
          PrepareRun u host compile sql db o' db := by
        refine .exit ?_ ho' (iff_of_true rfl fun _ text htext' => ?_)
        · rintro program ⟨⟨-, text, tail, htext', -⟩, -⟩
          exact absurd ⟨text, htext.symm.trans htext'⟩ ho
        · exact absurd ⟨text, htext.symm.trans htext'⟩ ho
      cases htext : strEncodeUtf8 host sql with
      | raise e =>
          exact ⟨_, _, rfl, hexit htext (Outcome.not_returns_raise e) (Outcome.not_returns_raise e)⟩
      | jump tag =>
          exact ⟨_, _, rfl, hexit htext (Outcome.not_returns_jump tag)
            (Outcome.not_returns_jump tag)⟩
      | ok text =>
          rw [CallM.lift_ok_bind]
          cases hcall : u.prepare (sqlRead text) db.content with
          | some r =>
              obtain ⟨e, content, begun⟩ := r
              refine ⟨_, _, rfl, .exit ?_ (Outcome.not_returns_raise e) ?_⟩
              · rintro program ⟨-, hback⟩
                cases hcall.symm.trans (hback text htext)
              · refine (opened_push_map { db with content } begun).trans ⟨?_, fun h => ?_⟩
                · rintro rfl _ text' htext' e' content' begun' hcall'
                  obtain rfl := Outcome.ok.inj (htext.symm.trans htext')
                  have hsame := Option.some.inj (hcall.symm.trans hcall')
                  exact (congrArg (·.2.2) hsame).symm
                · exact h hopen text htext e content begun hcall
          | none =>
              have hback (text' : List UInt8) (htext' : strEncodeUtf8 host sql = .ok text') :
                  u.prepare (sqlRead text') db.content = none := by
                obtain rfl := Outcome.ok.inj (htext.symm.trans htext')
                exact hcall
              have hnothing : LeavesNothing u host sql db := by
                rintro - text' htext' e content begun hcall'
                cases (hback text' htext').symm.trans hcall'
              rcases prepare_cases host compile sql rounds db with
                ⟨program, stmt, hcompiles, hid, hrun⟩ | ⟨hnone, ⟨stmt, hid, hrun⟩ | ⟨o, ho, hrun⟩⟩
              · exact ⟨_, _, hrun, .statement ⟨hcompiles, hback⟩ hid hnothing⟩
              · exact ⟨_, _, hrun, .noStatement (fun program h => hnone program h.1) hid hnothing⟩
              · exact ⟨_, _, hrun, .exit (fun program h => hnone program h.1) ho
                  (iff_of_true rfl hnothing)⟩

/-! ## Closing -/

/-- The statement is not open, or `sqlite3_finalize` of it comes back. -/
def Finalizes (stmt : Prepared) (db : Database C) : Prop :=
  ∀ s, db.statement stmt.id = some s → s.vm.isActive = true → (u.halted (db.machine s)).1 = none

/-- What closing leaves open: all but the statement, if its `sqlite3_finalize` comes back, and
otherwise as much as before. -/
def ClosedRun (stmt : Prepared) (db db' : Database C) : Prop :=
  (Finalizes u stmt db ∧ db'.opened = db.others stmt.id) ∨
    (¬ Finalizes u stmt db ∧ stmt.id ∈ db.opened ∧ db'.opened = db.opened)

theorem closedRun_of_none {stmt : Prepared} (h : db.statement stmt.id = none) :
    ClosedRun u stmt db db := by
  refine Or.inl ⟨fun s hs => ?_, ?_⟩
  · cases h.symm.trans hs
  · rw [Database.others, Set.sdiff_singleton_eq_self]
    simp [h]

/-- A statement that is open. -/
theorem close_open {stmt : Prepared} {s : Statement C} (hs : db.statement stmt.id = some s)
    {o : Outcome Unit} (hrun : close u stmt rounds db = some (o, db')) :
    ClosedRun u stmt db db' ∧ (o.Returns → Finalizes u stmt db) := by
  have hhalt := onStatement_run hs (Statement.Unwinding.sqlite3VdbeReset u) rounds
  have hput := Database.opened_put hs
    (Statement.Unwinding.sqlite3VdbeReset u (db.machine s)).2
  have hfinalizes : Finalizes u stmt db ↔
      (Statement.Unwinding.sqlite3VdbeReset u (db.machine s)).1.Returns := by
    rw [Statement.Unwinding.sqlite3VdbeReset_returns_iff]
    constructor
    · exact fun h => h s hs
    · rintro h s' hs'
      obtain rfl := Option.some.inj (hs.symm.trans hs')
      exact h
  rw [close] at hrun
  rcases hreset : Statement.Unwinding.sqlite3VdbeReset u (db.machine s) with ⟨o', m⟩
  rw [hreset] at hhalt hput hfinalizes
  by_cases ho' : o'.Returns
  · obtain ⟨a, rfl⟩ := ho'
    have hreturns := hfinalizes.mpr (Outcome.returns_ok a)
    rw [CallM.bind_run_ok _ _ hhalt] at hrun
    obtain ⟨rfl, rfl⟩ := Prod.mk.inj (Option.some.inj hrun)
    refine ⟨Or.inl ⟨hreturns, ?_⟩, fun _ => hreturns⟩
    rw [Database.opened_finalize, Database.others, hput, Database.others]
  · have hexit := CallM.bind_exit_not_returns hhalt ho' hrun
    obtain rfl := CallM.bind_exit hhalt ho' hrun
    refine ⟨Or.inr ⟨fun h => ho' (hfinalizes.mp h), ?_, hput⟩, fun h => absurd h hexit⟩
    rw [Database.mem_opened, hs]
    rfl

theorem close_run {stmt : Prepared} {o : Outcome Unit}
    (hrun : close u stmt rounds db = some (o, db')) : ClosedRun u stmt db db' := by
  cases hs : db.statement stmt.id with
  | none =>
      have hclosed := onStatement_closed hs (Statement.Unwinding.sqlite3VdbeReset u) rounds
      obtain rfl := CallM.bind_exit hclosed (Outcome.not_returns_raise _) hrun
      exact closedRun_of_none u hs
  | some s => exact (close_open u hs hrun).1

theorem closeUnlessClosed_run {stmt : Prepared} {o : Outcome Unit}
    (hrun : closeUnlessClosed u stmt rounds db = some (o, db')) :
    ClosedRun u stmt db db' ∧ (o.Returns → Finalizes u stmt db) := by
  rw [closeUnlessClosed, CallM.get_bind] at hrun
  cases hs : db.statement stmt.id with
  | none =>
      rw [hs, if_pos (by simp)] at hrun
      obtain rfl : db = db' := congrArg Prod.snd (Option.some.inj hrun)
      refine ⟨closedRun_of_none u hs, fun _ s hs' => ?_⟩
      cases hs.symm.trans hs'
  | some s =>
      rw [hs, if_neg (by simp)] at hrun
      exact close_open u hs hrun

/-- A statement that is still open at the end was not there before. -/
theorem opened_ne_of_leak {stmt : Prepared} (hid : stmt.id = db.statements.length)
    (h : stmt.id ∈ db'.opened) : db'.opened ≠ db.opened := by
  intro heq
  rw [heq, hid] at h
  exact db.length_notMem_opened h

/-- A statement of its own that a call closes at its end is released if it can be closed. -/
theorem ClosedRun.opened_iff {stmt : Prepared} {statement : Option (Statement C)}
    {db₁ : Database C} (hid : stmt.id = db.statements.length)
    (hothers : db₁.others stmt.id = (db.push statement).others stmt.id)
    (h : ClosedRun u stmt db₁ db') : db'.opened = db.opened ↔ Finalizes u stmt db₁ := by
  rcases h with ⟨hfinalizes, hopened⟩ | ⟨hfinalizes, hmem, hopened⟩
  · refine iff_of_true ?_ hfinalizes
    rw [hopened, hothers, hid, Database.others_push]
  · refine iff_of_false (opened_ne_of_leak hid ?_) hfinalizes
    rw [hopened]
    exact hmem

/-! ## A block of `prepare` -/

/-- `prepare` leaves nothing behind when it is unwound, and the statement can be closed when its
block is over. -/
def ClosesAfter (host : Host) (compile : List UInt8 → C → Compiled C) (sql : RString)
    (block : Prepared → QueryM C α) (rounds : Nat) (db : Database C) : Prop :=
  LeavesNothing u host sql db ∧ ∀ stmt db₁ o db₂,
    prepare u host compile sql rounds db = some (.ok stmt, db₁) →
      block stmt rounds db₁ = some (o, db₂) → Finalizes u stmt db₂

/-- The block of a `prepare` that returns is the one that it was run with. -/
theorem closesAfter_iff {block : Prepared → QueryM C α} {stmt : Prepared} {db₁ db₂ : Database C}
    {o : Outcome α} (hnothing : LeavesNothing u host sql db)
    (hprepare : prepare u host compile sql rounds db = some (.ok stmt, db₁))
    (hblock : block stmt rounds db₁ = some (o, db₂)) :
    ClosesAfter u host compile sql block rounds db ↔ Finalizes u stmt db₂ := by
  constructor
  · exact fun h => h.2 stmt db₁ o db₂ hprepare hblock
  · refine fun h => ⟨hnothing, fun stmt' db₁' o' db₂' hprepare' hblock' => ?_⟩
    obtain ⟨hstmt, rfl⟩ := Prod.mk.inj (Option.some.inj (hprepare.symm.trans hprepare'))
    obtain rfl := Outcome.ok.inj hstmt
    obtain ⟨rfl, rfl⟩ := Prod.mk.inj (Option.some.inj (hblock.symm.trans hblock'))
    exact h

theorem prepareBlock_opened {block : Prepared → QueryM C α}
    (h : ∀ stmt, KeepsOthers stmt.id (block stmt)) {o : Outcome α}
    (hrun : prepareBlock u host compile sql block rounds db = some (o, db')) :
    (db'.opened = db.opened ↔ ClosesAfter u host compile sql block rounds db) ∧
      (o.Returns → ClosesAfter u host compile sql block rounds db) := by
  have hstatement {stmt : Prepared} (statement : Option (Statement C))
      (hid : stmt.id = db.statements.length) (hnothing : LeavesNothing u host sql db)
      (hprepare : prepare u host compile sql rounds db = some (.ok stmt, db.push statement)) :
      (db'.opened = db.opened ↔ ClosesAfter u host compile sql block rounds db) ∧
        (o.Returns → ClosesAfter u host compile sql block rounds db) := by
    rw [prepareBlock, CallM.bind_run_ok _ _ hprepare] at hrun
    obtain ⟨o₂, o₃, db₂, hblock, hclose⟩ := CallM.ensure_eq_some hrun
    obtain ⟨hclosed, hreturns⟩ := closeUnlessClosed_run u hclose
    rw [closesAfter_iff u hnothing hprepare hblock]
    refine ⟨ClosedRun.opened_iff u hid (h stmt rounds _ _ _ hblock) hclosed, fun ho => ?_⟩
    exact hreturns (CallM.clause_returns hrun ho hblock hclose)
  obtain ⟨o₁, db₁, hprepare, hcases⟩ := prepare_run u host compile sql rounds db
  cases hcases with
  | statement hprepares hid hnothing => exact hstatement _ hid hnothing hprepare
  | noStatement hnone hid hnothing => exact hstatement _ hid hnothing hprepare
  | exit hnone ho₁ hopened =>
      have ho := CallM.bind_exit_not_returns hprepare ho₁ hrun
      obtain rfl := CallM.bind_exit hprepare ho₁ hrun
      refine ⟨hopened.trans ⟨fun hnothing => ⟨hnothing, ?_⟩, And.left⟩, fun h => absurd h ho⟩
      rintro stmt db₂ o' db₃ hprepare' -
      obtain ⟨hstmt, -⟩ := Prod.mk.inj (Option.some.inj (hprepare.symm.trans hprepare'))
      exact absurd ⟨stmt, hstmt⟩ ho₁

/-! ## `execute` and its like -/

/-- What `execute` does with its statement. -/
def executeOn (host : Host) (vars : BindVar) (block : β → Row → QueryM C β) (b : β)
    (stmt : Prepared) : QueryM C β := do
  bindParams host stmt [vars]
  let rs ← buildResultSet stmt
  each u rs block b

/-- What `execute2` does with its statement. -/
def execute2On (host : Host) (vars : List BindVar) (block : β → Row → QueryM C β) (b : β)
    (stmt : Prepared) : QueryM C β := do
  let result ← statementExecute u host stmt vars
  let b ← block b (.header (← columns stmt))
  each u result block b

/-- What `execute_batch` does with a statement. -/
def batchOn (host : Host) (vars : BindVar) (length : Outcome Nat) (result : Option (List Value))
    (stmt : Prepared) : QueryM C BatchState := do
  let result ← batchStep u host vars length stmt result
  let sql ← CallM.lift ((utf8String stmt.remainder).strip host)
  pure ⟨sql, result⟩

theorem executeOn_keeps (host : Host) (vars : BindVar) {block : β → Row → QueryM C β}
    (h : ∀ b row, KeepsOpened (block b row)) (b : β) (stmt : Prepared) :
    KeepsOthers stmt.id (executeOn u host vars block b stmt) := by
  refine KeepsOpened.others ?_ stmt.id
  refine (bindParams_keeps host stmt _).bind fun _ => (buildResultSet_keeps stmt).bind fun rs => ?_
  exact each_keeps u rs h b

theorem execute2On_keeps (host : Host) (vars : List BindVar) {block : β → Row → QueryM C β}
    (h : ∀ b row, KeepsOpened (block b row)) (b : β) (stmt : Prepared) :
    KeepsOthers stmt.id (execute2On u host vars block b stmt) := by
  refine KeepsOpened.others ?_ stmt.id
  refine (statementExecute_keeps u host stmt vars).bind fun result => ?_
  refine (onStatement_keeps stmt _).bind fun header => (h b _).bind fun b => ?_
  exact each_keeps u result h b

theorem batchOn_keeps (host : Host) (vars : BindVar) (length : Outcome Nat)
    (result : Option (List Value)) (stmt : Prepared) :
    KeepsOthers stmt.id (batchOn u host vars length result stmt) := by
  refine KeepsOpened.others (CallM.Keeps.bind ?_ fun result => ?_) stmt.id
  · refine CallM.keeps_get.bind fun db => ?_
    split
    · exact CallM.keeps_pure result
    · refine (CallM.keeps_lift length).bind fun length => ?_
      refine (onStatement_keeps stmt _).bind fun count => ?_
      split
      · exact (bindParams_keeps host stmt _).bind fun _ => onStatement_keeps stmt _
      · exact onStatement_keeps stmt _
  · exact (CallM.keeps_lift _).bind fun sql => CallM.keeps_pure _

theorem executeBlock_opened_iff {vars : BindVar} {block : β → Row → QueryM C β}
    (h : ∀ b row, KeepsOpened (block b row)) {b : β} {o : Outcome β}
    (hrun : executeBlock u host compile sql vars block b rounds db = some (o, db')) :
    db'.opened = db.opened ↔
      ClosesAfter u host compile sql (executeOn u host vars block b) rounds db :=
  (prepareBlock_opened u (executeOn_keeps u host vars h b) hrun).1

theorem execute2Block_opened_iff {vars : List BindVar} {block : β → Row → QueryM C β}
    (h : ∀ b row, KeepsOpened (block b row)) {b : β} {o : Outcome β}
    (hrun : execute2Block u host compile sql vars block b rounds db = some (o, db')) :
    db'.opened = db.opened ↔
      ClosesAfter u host compile sql (execute2On u host vars block b) rounds db :=
  (prepareBlock_opened u (execute2On_keeps u host vars h b) hrun).1

/-- Every round of `execute_batch` that is reached can close its statement. -/
def BatchCloses (host : Host) (compile : List UInt8 → C → Compiled C) (sql : RString)
    (vars : BindVar) (length : Outcome Nat) (rounds : Nat) (db : Database C) : Prop :=
  ∀ script, sql.strip host = .ok script → ∀ k b db₁,
    CallM.firstRounds BatchState.isFinished (batchBody u host compile vars length) k
      ⟨script, none⟩ rounds db = some (.ok b, db₁) → b.isFinished = false →
    ClosesAfter u host compile b.sql (batchOn u host vars length b.result) rounds db₁

theorem executeBatch_opened_iff {vars : BindVar} {length : Outcome Nat}
    {o : Outcome (Option (List Value))}
    (hrun : executeBatch u host compile sql vars length rounds db = some (o, db')) :
    db'.opened = db.opened ↔ BatchCloses u host compile sql vars length rounds db := by
  rw [executeBatch] at hrun
  cases hscript : sql.strip host with
  | raise e =>
      rw [hscript, CallM.lift_raise_bind] at hrun
      obtain rfl : db = db' := congrArg Prod.snd (Option.some.inj hrun)
      refine iff_of_true rfl fun script h => ?_
      cases hscript.symm.trans h
  | jump tag =>
      rw [hscript] at hrun
      obtain rfl : db = db' := congrArg Prod.snd (Option.some.inj hrun)
      refine iff_of_true rfl fun script h => ?_
      cases hscript.symm.trans h
  | ok script =>
      rw [hscript, CallM.lift_ok_bind] at hrun
      obtain ⟨o', hloop⟩ := CallM.bind_eq_some_of_keeps (fun b => CallM.keeps_pure _) hrun
      have hround (b : BatchState) (db : Database C) (o : Outcome BatchState) (db' : Database C)
          (hrun : batchBody u host compile vars length b rounds db = some (o, db')) :
          (db'.opened = db.opened ↔
            ClosesAfter u host compile b.sql (batchOn u host vars length b.result) rounds db) ∧
          (o.Returns →
            ClosesAfter u host compile b.sql (batchOn u host vars length b.result) rounds db) :=
        prepareBlock_opened u (batchOn_keeps u host vars length b.result) hrun
      refine (CallM.untilRounds_kept_iff hround hloop).trans ⟨fun h script' hscript' => ?_, ?_⟩
      · obtain rfl := Outcome.ok.inj (hscript.symm.trans hscript')
        exact h
      · exact fun h => h script hscript

/-! ## `query` -/

/-- If the text compiles to a statement, `Statement#execute` returns: nothing is raised by
the binding, nor by the first step of a statement without columns. -/
def Executes (host : Host) (compile : List UInt8 → C → Compiled C) (sql : RString) (vars : BindVar)
    (db : Database C) : Prop :=
  ∀ program, Prepares u host compile sql db program →
    (Statement.Unwinding.execute u host [vars] (db.machine { program })).1.Returns

/-- `query` comes to its block, and the statement can be closed when that is over. -/
def QueryCloses (host : Host) (compile : List UInt8 → C → Compiled C) (sql : RString)
    (vars : BindVar) (block : ResultSet → QueryM C α) (rounds : Nat) (db : Database C) : Prop :=
  (LeavesNothing u host sql db ∧ Executes u host compile sql vars db) ∧ ∀ rs db₁ o db₂,
    query u host compile sql vars rounds db = some (.ok rs, db₁) →
      block rs rounds db₁ = some (o, db₂) → Finalizes u rs.stmt db₂

/-- `query` hands out a result set of a new statement, or leaves with an exit. -/
theorem query_run (host : Host) (compile : List UInt8 → C → Compiled C) (sql : RString)
    (vars : BindVar) (rounds : Nat) (db : Database C) :
    ∃ o db₁, query u host compile sql vars rounds db = some (o, db₁) ∧
      ((∃ rs, o = .ok rs ∧ rs.stmt.id = db.statements.length ∧
          db₁.others rs.stmt.id = db.opened ∧ LeavesNothing u host sql db ∧
          Executes u host compile sql vars db) ∨
        (¬ o.Returns ∧ (db₁.opened = db.opened ↔
          LeavesNothing u host sql db ∧ Executes u host compile sql vars db))) := by
  obtain ⟨o₁, db₁, hprepare, hcases⟩ := prepare_run u host compile sql rounds db
  rw [query]
  cases hcases with
  | @statement program stmt hprepares hid hnothing =>
      have hnew : (db.push (some { program })).statement stmt.id = some { program } := by
        rw [hid]
        exact Database.statement_push _ _
      have hexecute := onStatement_run hnew (Statement.Unwinding.execute u host [vars]) rounds
      have hput := Database.opened_put hnew (Statement.Unwinding.execute u host [vars]
        ((db.push (some { program })).machine { program })).2
      have hexecutes : Executes u host compile sql vars db ↔
          (Statement.Unwinding.execute u host [vars] (db.machine { program })).1.Returns := by
        constructor
        · exact fun h => h program hprepares
        · rintro h program' hprepares'
          obtain rfl := hprepares.unique hprepares'
          exact h
      rcases hm : Statement.Unwinding.execute u host [vars]
        ((db.push (some { program })).machine { program }) with ⟨o', m⟩
      rw [hm] at hexecute hput
      rw [show Statement.Unwinding.execute u host [vars] (db.machine { program }) = (o', m)
        from hm] at hexecutes
      rw [CallM.bind_run_ok _ _ hprepare, statementExecute]
      cases o' with
      | ok a =>
          refine ⟨_, _, CallM.bind_run_ok a _ hexecute, Or.inl ⟨_, rfl, hid, ?_, hnothing,
            hexecutes.mpr (Outcome.returns_ok a)⟩⟩
          change Database.others stmt.id _ = _
          rw [Database.others, hput, ← Database.others, hid, Database.others_push]
      | raise e =>
          refine ⟨_, _, CallM.bind_run_raise _ hexecute, Or.inr ⟨Outcome.not_returns_raise e,
            iff_of_false (opened_ne_of_leak hid ?_) fun h => Outcome.not_returns_raise e
              (hexecutes.mp h.2)⟩⟩
          rw [hput, Database.mem_opened, hnew]
          rfl
      | jump tag =>
          refine ⟨_, _, CallM.bind_run_jump _ hexecute, Or.inr ⟨Outcome.not_returns_jump tag,
            iff_of_false (opened_ne_of_leak hid ?_) fun h => Outcome.not_returns_jump tag
              (hexecutes.mp h.2)⟩⟩
          rw [hput, Database.mem_opened, hnew]
          rfl
  | @noStatement stmt hnone hid hnothing =>
      have hclosed : onStatement stmt (Statement.Unwinding.execute u host [vars]) rounds
          (db.push none) = some (.raise closedStatement, db.push none) := by
        refine onStatement_closed ?_ _ rounds
        rw [hid]
        exact Database.statement_push _ _
      rw [CallM.bind_run_ok _ _ hprepare, statementExecute]
      refine ⟨_, _, CallM.bind_run_raise _ hclosed, Or.inr ⟨Outcome.not_returns_raise _,
        iff_of_true (Database.opened_push_none db) ⟨hnothing, fun program h => ?_⟩⟩⟩
      exact absurd h (hnone program)
  | exit hnone ho₁ hopened =>
      have hexecutes : Executes u host compile sql vars db := fun program h =>
        absurd h (hnone program)
      cases o₁ with
      | ok stmt => exact absurd (Outcome.returns_ok stmt) ho₁
      | raise e =>
          exact ⟨_, _, CallM.bind_run_raise _ hprepare, Or.inr ⟨Outcome.not_returns_raise e,
            hopened.trans (and_iff_left hexecutes).symm⟩⟩
      | jump tag =>
          exact ⟨_, _, CallM.bind_run_jump _ hprepare, Or.inr ⟨Outcome.not_returns_jump tag,
            hopened.trans (and_iff_left hexecutes).symm⟩⟩

theorem queryBlock_opened_iff {vars : BindVar} {block : ResultSet → QueryM C α}
    (hblock : ∀ rs, KeepsOthers rs.stmt.id (block rs)) {o : Outcome α}
    (hrun : queryBlock u host compile sql vars block rounds db = some (o, db')) :
    db'.opened = db.opened ↔ QueryCloses u host compile sql vars block rounds db := by
  obtain ⟨o₁, db₁, hquery, hcases⟩ := query_run u host compile sql vars rounds db
  rw [queryBlock] at hrun
  rcases hcases with ⟨rs, rfl, hid, hothers, hnothing, hexecutes⟩ | ⟨ho₁, hopened⟩
  · rw [CallM.bind_run_ok _ _ hquery] at hrun
    obtain ⟨o₂, o₃, db₂, hinner, hclose⟩ := CallM.ensure_eq_some hrun
    have hkept : db₂.others rs.stmt.id = (db.push none).others rs.stmt.id := by
      rw [hblock rs rounds _ _ _ hinner, hothers, hid, Database.others_push]
    rw [ClosedRun.opened_iff u hid hkept (close_run u hclose)]
    refine ⟨fun h => ⟨⟨hnothing, hexecutes⟩, fun rs' db₁' o' db₂' hquery' hinner' => ?_⟩,
      fun h => h.2 rs db₁ o₂ db₂ hquery hinner⟩
    obtain ⟨hrs, rfl⟩ := Prod.mk.inj (Option.some.inj (hquery.symm.trans hquery'))
    obtain rfl := Outcome.ok.inj hrs
    obtain ⟨rfl, rfl⟩ := Prod.mk.inj (Option.some.inj (hinner.symm.trans hinner'))
    exact h
  · obtain rfl := CallM.bind_exit hquery ho₁ hrun
    refine hopened.trans ⟨fun h => ⟨h, ?_⟩, And.left⟩
    rintro rs db₂ o' db₃ hquery' -
    obtain ⟨hrs, -⟩ := Prod.mk.inj (Option.some.inj (hquery.symm.trans hquery'))
    exact absurd ⟨rs, hrs⟩ ho₁

/-- What `get_first_value` does with its result set. -/
def firstValueOn (rs : ResultSet) : QueryM C Value := do
  match ← next u rs with
  | none => pure .nil
  | some row => do
      let columns ← columns rs.stmt
      pure (firstValue row columns)

theorem getFirstValue_opened_iff {vars : List BindVar} {o : Outcome Value}
    (hrun : getFirstValue u host compile sql vars rounds db = some (o, db')) :
    db'.opened = db.opened ↔
      QueryCloses u host compile sql (.array vars) (firstValueOn u) rounds db := by
  refine queryBlock_opened_iff u (fun rs => KeepsOpened.others ?_ rs.stmt.id) hrun
  refine (next_keeps u rs).bind fun row => ?_
  cases row with
  | none => exact CallM.keeps_pure _
  | some row => exact (onStatement_keeps rs.stmt _).bind fun columns => CallM.keeps_pure _

theorem pragmaReader_opened_iff {name : List UInt8} {convert : Value → Outcome α} {o : Outcome α}
    (hrun : pragmaReader u host compile name convert rounds db = some (o, db')) :
    db'.opened = db.opened ↔
      QueryCloses u host compile (pragmaText name) (.array []) (firstValueOn u) rounds db := by
  obtain ⟨o', hvalue⟩ := CallM.bind_eq_some_of_keeps (fun value => CallM.keeps_lift _) hrun
  exact getFirstValue_opened_iff u hvalue

/-! ## `table_info` -/

/-- If the text compiles to a statement, the `each` over its rows returns: neither a step, nor
`tweak`, nor the block leaves it by a jump or by an exception other than a `StopIteration`. Then
the statement can be closed. -/
def RowsEnd (host : Host) (compile : List UInt8 → C → Compiled C)
    (tweak : List (String × Value) → Outcome (List (String × Value))) (table : List UInt8)
    (block : β → List (String × Value) → QueryM C β) (b : β) (rounds : Nat) (db : Database C) :
    Prop :=
  LeavesNothing u host (tableInfoText table) db ∧ ∀ stmt db₁ s,
    prepare u host compile (tableInfoText table) rounds db = some (.ok stmt, db₁) →
      db₁.statement stmt.id = some s → ∀ o db₂,
        statementEach u stmt (tableInfoRow tweak block s.program.columns) b rounds db₁ =
          some (o, db₂) → o.Returns ∧ Finalizes u stmt db₂

/-- Of a statement that was prepared, only its own `each` matters. -/
theorem rowsEnd_iff {tweak : List (String × Value) → Outcome (List (String × Value))}
    {table : List UInt8} {block : β → List (String × Value) → QueryM C β} {b : β}
    {stmt : Prepared} {s : Statement C} {db₁ db₂ : Database C} {o : Outcome β}
    (hnothing : LeavesNothing u host (tableInfoText table) db)
    (hprepare : prepare u host compile (tableInfoText table) rounds db = some (.ok stmt, db₁))
    (hs : db₁.statement stmt.id = some s)
    (heach : statementEach u stmt (tableInfoRow tweak block s.program.columns) b rounds db₁ =
      some (o, db₂)) :
    RowsEnd u host compile tweak table block b rounds db ↔ o.Returns ∧ Finalizes u stmt db₂ := by
  constructor
  · exact fun h => h.2 stmt db₁ s hprepare hs o db₂ heach
  · refine fun h => ⟨hnothing, fun stmt' db₁' s' hprepare' hs' o' db₂' heach' => ?_⟩
    obtain ⟨hstmt, rfl⟩ := Prod.mk.inj (Option.some.inj (hprepare.symm.trans hprepare'))
    obtain rfl := Outcome.ok.inj hstmt
    obtain rfl := Option.some.inj (hs.symm.trans hs')
    obtain ⟨rfl, rfl⟩ := Prod.mk.inj (Option.some.inj (heach.symm.trans heach'))
    exact h

theorem tableInfo_opened_iff {tweak : List (String × Value) → Outcome (List (String × Value))}
    {table : List UInt8} {block : β → List (String × Value) → QueryM C β}
    (hblock : ∀ b row, KeepsOpened (block b row)) {b : β} {o : Outcome β}
    (hrun : tableInfoBlock u host compile tweak table block b rounds db = some (o, db')) :
    db'.opened = db.opened ↔ RowsEnd u host compile tweak table block b rounds db := by
  obtain ⟨o₁, db₁, hprepare, hcases⟩ := prepare_run u host compile (tableInfoText table) rounds db
  rw [tableInfoBlock] at hrun
  cases hcases with
  | @statement program stmt hprepares hid hnothing =>
      have hnew : (db.push (some { program })).statement stmt.id = some { program } := by
        rw [hid]
        exact Database.statement_push _ _
      rw [CallM.bind_run_ok _ _ hprepare, CallM.bind_run_ok _ _ (columns_run hnew rounds)] at hrun
      change (statementEach u stmt (tableInfoRow tweak block program.columns) b >>= fun b =>
        close u stmt >>= fun _ => pure b) rounds (db.push (some { program })) = _ at hrun
      have hkeeps : KeepsOpened
          (statementEach u stmt (tableInfoRow tweak block program.columns) b) :=
        CallM.Keeps.loopSome (nextValues_keeps u stmt) (tableInfoRow_keeps tweak hblock _) b
      rcases heach : statementEach u stmt (tableInfoRow tweak block program.columns) b rounds
          (db.push (some { program })) with _ | ⟨o', db₂⟩
      · rw [CallM.bind_run_none _ heach] at hrun
        cases hrun
      · have hkept := hkeeps rounds _ o' db₂ heach
        rw [rowsEnd_iff u hnothing hprepare hnew heach]
        by_cases ho' : o'.Returns
        · obtain ⟨b', rfl⟩ := ho'
          rw [CallM.bind_run_ok _ _ heach] at hrun
          obtain ⟨o₂, hclose⟩ := CallM.bind_eq_some_of_keeps (fun _ => CallM.keeps_pure b') hrun
          have hothers : db₂.others stmt.id = (db.push (some { program })).others stmt.id := by
            rw [Database.others, hkept, Database.others]
          exact (ClosedRun.opened_iff u hid hothers (close_run u hclose)).trans
            (and_iff_right (Outcome.returns_ok b')).symm
        · obtain rfl := CallM.bind_exit heach ho' hrun
          refine iff_of_false (opened_ne_of_leak hid ?_) fun h => ho' h.1
          rw [hkept, Database.mem_opened, hnew]
          rfl
  | @noStatement stmt hnone hid hnothing =>
      have hnew : (db.push none).statement stmt.id = none := by
        rw [hid]
        exact Database.statement_push _ _
      rw [CallM.bind_run_ok _ _ hprepare] at hrun
      obtain rfl := CallM.bind_exit (onStatement_closed hnew _ rounds) (Outcome.not_returns_raise _)
        hrun
      refine iff_of_true (Database.opened_push_none db) ⟨hnothing, ?_⟩
      intro stmt' db₁ s hprepare' hs
      obtain ⟨hstmt, rfl⟩ := Prod.mk.inj (Option.some.inj (hprepare.symm.trans hprepare'))
      obtain rfl := Outcome.ok.inj hstmt
      cases hnew.symm.trans hs
  | exit hnone ho₁ hopened =>
      obtain rfl := CallM.bind_exit hprepare ho₁ hrun
      refine hopened.trans ⟨fun hnothing => ⟨hnothing, fun stmt' db₁ s hprepare' => ?_⟩, And.left⟩
      obtain ⟨hstmt, -⟩ := Prod.mk.inj (Option.some.inj (hprepare.symm.trans hprepare'))
      exact absurd ⟨stmt', hstmt⟩ ho₁

/-! ## The methods -/

/-- A call of one of the methods that prepare a statement of their own. -/
inductive Method (C : Type) : Type 1
  | prepare {α : Type} (sql : RString) (block : Prepared → QueryM C α)
  | execute (sql : RString) (vars : BindVar)
  | executeBlock {β : Type} (sql : RString) (vars : BindVar) (block : β → Row → QueryM C β) (b : β)
  | execute2 (sql : RString) (vars : List BindVar)
  | execute2Block {β : Type} (sql : RString) (vars : List BindVar)
      (block : β → Row → QueryM C β) (b : β)
  | executeBatch (sql : RString) (vars : BindVar) (length : Outcome Nat)
  | query {α : Type} (sql : RString) (vars : BindVar) (block : ResultSet → QueryM C α)
  | getFirstRow (sql : RString) (vars : List BindVar)
  | getFirstValue (sql : RString) (vars : List BindVar)
  | getBooleanPragma (name : List UInt8)
  | getEnumPragma (name : List UInt8)
  | getIntPragma (toI : Value → Outcome Int) (name : List UInt8)
  | getQueryPragma (name : List UInt8) (params : List (List UInt8))
  | getQueryPragmaBlock {β : Type} (name : List UInt8) (params : List (List UInt8))
      (block : β → Row → QueryM C β) (b : β)
  | tableInfo (tweak : List (String × Value) → Outcome (List (String × Value)))
      (table : List UInt8)
  | tableInfoBlock {β : Type} (tweak : List (String × Value) → Outcome (List (String × Value)))
      (table : List UInt8) (block : β → List (String × Value) → QueryM C β) (b : β)

namespace Method

/-- What the call returns. -/
def Result : Method C → Type
  | @prepare _ α _ _ => α
  | execute _ _ => List Row
  | @executeBlock _ β _ _ _ _ => β
  | execute2 _ _ => List Row
  | @execute2Block _ β _ _ _ _ => β
  | executeBatch _ _ _ => Option (List Value)
  | @query _ α _ _ _ => α
  | getFirstRow _ _ => Option Row
  | getFirstValue _ _ => Value
  | getBooleanPragma _ => Bool
  | getEnumPragma _ => Value
  | getIntPragma _ _ => Int
  | getQueryPragma _ _ => List Row
  | @getQueryPragmaBlock _ β _ _ _ _ => β
  | tableInfo _ _ => List (List (String × Value))
  | @tableInfoBlock _ β _ _ _ _ => β

def run (u : Unwinding C) (host : Host) (compile : List UInt8 → C → Compiled C) :
    (method : Method C) → QueryM C method.Result
  | prepare sql block => prepareBlock u host compile sql block
  | execute sql vars => Unwinding.execute u host compile sql vars
  | executeBlock sql vars block b => Unwinding.executeBlock u host compile sql vars block b
  | execute2 sql vars => Unwinding.execute2 u host compile sql vars
  | execute2Block sql vars block b => Unwinding.execute2Block u host compile sql vars block b
  | executeBatch sql vars length => Unwinding.executeBatch u host compile sql vars length
  | query sql vars block => queryBlock u host compile sql vars block
  | getFirstRow sql vars => Unwinding.getFirstRow u host compile sql vars
  | getFirstValue sql vars => Unwinding.getFirstValue u host compile sql vars
  | getBooleanPragma name => Unwinding.getBooleanPragma u host compile name
  | getEnumPragma name => Unwinding.getEnumPragma u host compile name
  | getIntPragma toI name => Unwinding.getIntPragma u host compile toI name
  | getQueryPragma name params => Unwinding.getQueryPragma u host compile name params
  | getQueryPragmaBlock name params block b =>
      Unwinding.getQueryPragmaBlock u host compile name params block b
  | tableInfo tweak table => Unwinding.tableInfo u host compile tweak table
  | tableInfoBlock tweak table block b => Unwinding.tableInfoBlock u host compile tweak table block b

/-- The same call where every call into SQLite comes back. -/
def runBack (host : Host) (compile : List UInt8 → C → Compiled C) :
    (method : Method C) → QueryM C method.Result
  | prepare sql block => Query.prepareBlock host compile sql block
  | execute sql vars => Query.execute host compile sql vars
  | executeBlock sql vars block b => Query.executeBlock host compile sql vars block b
  | execute2 sql vars => Query.execute2 host compile sql vars
  | execute2Block sql vars block b => Query.execute2Block host compile sql vars block b
  | executeBatch sql vars length => Query.executeBatch host compile sql vars length
  | query sql vars block => Query.queryBlock host compile sql vars block
  | getFirstRow sql vars => Query.getFirstRow host compile sql vars
  | getFirstValue sql vars => Query.getFirstValue host compile sql vars
  | getBooleanPragma name => Query.getBooleanPragma host compile name
  | getEnumPragma name => Query.getEnumPragma host compile name
  | getIntPragma toI name => Query.getIntPragma host compile toI name
  | getQueryPragma name params => Query.getQueryPragma host compile name params
  | getQueryPragmaBlock name params block b =>
      Query.getQueryPragmaBlock host compile name params block b
  | tableInfo tweak table => Query.tableInfo host compile tweak table
  | tableInfoBlock tweak table block b => Query.tableInfoBlock host compile tweak table block b

theorem run_calm (host : Host) (compile : List UInt8 → C → Compiled C) (method : Method C) :
    method.run Unwinding.calm host compile = method.runBack host compile := by
  cases method with
  | prepare sql block => rw [run, runBack, prepareBlock_calm]
  | execute sql vars => rw [run, runBack, execute_calm]
  | executeBlock sql vars block b => rw [run, runBack, executeBlock_calm]
  | execute2 sql vars => rw [run, runBack, execute2_calm]
  | execute2Block sql vars block b => rw [run, runBack, execute2Block_calm]
  | executeBatch sql vars length => rw [run, runBack, executeBatch_calm]
  | query sql vars block => rw [run, runBack, queryBlock_calm]
  | getFirstRow sql vars => rw [run, runBack, getFirstRow_calm]
  | getFirstValue sql vars => rw [run, runBack, getFirstValue_calm]
  | getBooleanPragma name =>
      rw [run, runBack, Unwinding.getBooleanPragma, pragmaReader_calm, Query.getBooleanPragma]
  | getEnumPragma name =>
      rw [run, runBack, Unwinding.getEnumPragma, pragmaReader_calm, Query.getEnumPragma]
  | getIntPragma toI name =>
      rw [run, runBack, Unwinding.getIntPragma, pragmaReader_calm, Query.getIntPragma]
  | getQueryPragma name params =>
      rw [run, runBack, Unwinding.getQueryPragma, execute_calm, Query.getQueryPragma]
  | getQueryPragmaBlock name params block b =>
      change Unwinding.executeBlock Unwinding.calm host compile _ _ block b = _
      rw [executeBlock_calm]
      rfl
  | tableInfo tweak table =>
      rw [run, runBack, Unwinding.tableInfo, tableInfoBlock_calm, Query.tableInfo]
  | tableInfoBlock tweak table block b => rw [run, runBack, tableInfoBlock_calm]

/-- The block, however it ends, leaves the open statements as they were; the one that it is
handed it may close. -/
def Tidy : Method C → Prop
  | prepare _ block => ∀ stmt, KeepsOthers stmt.id (block stmt)
  | executeBlock _ _ block _ => ∀ b row, KeepsOpened (block b row)
  | execute2Block _ _ block _ => ∀ b row, KeepsOpened (block b row)
  | query _ _ block => ∀ rs, KeepsOthers rs.stmt.id (block rs)
  | getQueryPragmaBlock _ _ block _ => ∀ b row, KeepsOpened (block b row)
  | tableInfoBlock _ _ block _ => ∀ b row, KeepsOpened (block b row)
  | _ => True

/-- The call comes to the closing of its own statement, and `sqlite3_finalize` comes back
there; no `sqlite3_prepare_v2` that is unwound leaves a statement behind. -/
def ReachesClose (u : Unwinding C) (host : Host) (compile : List UInt8 → C → Compiled C)
    (rounds : Nat) (db : Database C) : Method C → Prop
  | prepare sql block => ClosesAfter u host compile sql block rounds db
  | execute sql vars =>
      ClosesAfter u host compile sql (executeOn u host vars pushRow []) rounds db
  | executeBlock sql vars block b =>
      ClosesAfter u host compile sql (executeOn u host vars block b) rounds db
  | execute2 sql vars =>
      ClosesAfter u host compile sql (execute2On u host vars pushRow []) rounds db
  | execute2Block sql vars block b =>
      ClosesAfter u host compile sql (execute2On u host vars block b) rounds db
  | executeBatch sql vars length => BatchCloses u host compile sql vars length rounds db
  | query sql vars block => QueryCloses u host compile sql vars block rounds db
  | getFirstRow sql [] =>
      ClosesAfter u host compile sql (executeOn u host (.array []) pushRow []) rounds db
  | getFirstRow sql [var] =>
      ClosesAfter u host compile sql (executeOn u host var pushRow []) rounds db
  | getFirstRow _ _ => True
  | getFirstValue sql vars =>
      QueryCloses u host compile sql (.array vars) (firstValueOn u) rounds db
  | getBooleanPragma name =>
      QueryCloses u host compile (pragmaText name) (.array []) (firstValueOn u) rounds db
  | getEnumPragma name =>
      QueryCloses u host compile (pragmaText name) (.array []) (firstValueOn u) rounds db
  | getIntPragma _ name =>
      QueryCloses u host compile (pragmaText name) (.array []) (firstValueOn u) rounds db
  | getQueryPragma name params =>
      ClosesAfter u host compile (queryPragmaText name params)
        (executeOn u host (.array []) pushRow []) rounds db
  | getQueryPragmaBlock name params block b =>
      ClosesAfter u host compile (queryPragmaText name params)
        (executeOn u host (.array []) block b) rounds db
  | tableInfo tweak table => RowsEnd u host compile tweak table pushRow [] rounds db
  | tableInfoBlock tweak table block b => RowsEnd u host compile tweak table block b rounds db

end Method

theorem execute_opened_iff {vars : BindVar} {o : Outcome (List Row)}
    (hrun : execute u host compile sql vars rounds db = some (o, db')) :
    db'.opened = db.opened ↔
      ClosesAfter u host compile sql (executeOn u host vars pushRow []) rounds db :=
  executeBlock_opened_iff u pushRow_keeps hrun

theorem getFirstRow_opened_iff {vars : List BindVar} {o : Outcome (Option Row)}
    (hrun : getFirstRow u host compile sql vars rounds db = some (o, db')) :
    db'.opened = db.opened ↔ (Method.getFirstRow sql vars).ReachesClose u host compile rounds db := by
  rcases vars with _ | ⟨var, _ | ⟨var', vars⟩⟩
  · obtain ⟨o', hrows⟩ := CallM.bind_eq_some_of_keeps (fun rows => CallM.keeps_pure _) hrun
    exact execute_opened_iff u hrows
  · obtain ⟨o', hrows⟩ := CallM.bind_eq_some_of_keeps (fun rows => CallM.keeps_pure _) hrun
    exact execute_opened_iff u hrows
  · obtain rfl : db = db' := congrArg Prod.snd (Option.some.inj hrun)
    exact iff_of_true rfl trivial

/-- `execute` cannot close the statement whose step it was that raised. -/
example :
    let prepared : Query.Database Unit := newDatabase ()
    ∃ e db', execute Unwinding.refusesOne Statement.littleHost
        (knows knownText Unwinding.selectAgg) (utf8String knownText) (.value (.integer 1)) 1
        prepared = some (.raise e, db') ∧ db'.opened ≠ prepared.opened :=
  ⟨_, _, rfl, @opened_ne_of_leak _ _ _ ⟨0, []⟩ rfl rfl⟩

end Unwinding

end Sqlite3Ruby.Query
