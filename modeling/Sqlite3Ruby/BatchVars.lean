import Sqlite3Ruby.Script

/-!
# Bind variables of a script

`execute_batch` binds a statement only when the collection it was given has as many
elements as the statement has parameters. Otherwise it runs the statement as it is.
-/

namespace Sqlite3Ruby.Query

variable {C : Type}

/-- `bind_vars`: an array, which can be nested, or a hash. -/
inductive BatchVars
  | array (vars : List BindVar)
  | hash (entries : List (ParamKey × Value))

namespace BatchVars

def var : BatchVars → BindVar
  | array vars => .array vars
  | hash entries => .hash entries

/-- `bind_vars.length`. -/
def length : BatchVars → Nat
  | array vars => vars.length
  | hash entries => entries.length

end BatchVars

/-- The part of `runOnce` that comes before the step. -/
def bindCounted (host : Host) (vars : BindVar) (length : Outcome Nat) : StatementM C Unit := do
  let length ← RubyM.lift length
  let m ← RubyM.get
  if length = m.statement.program.parameterCount then Statement.bindParams host [vars] else pure ()

theorem runOnce_eq (host : Host) (vars : BindVar) (length : Outcome Nat) :
    runOnce (C := C) host vars length = (bindCounted host vars length >>= fun _ => Statement.step) := by
  funext m
  rw [runOnce, bindCounted]
  cases length with
  | raise e => rfl
  | jump tag => rfl
  | ok n =>
      rw [RubyM.bind_assoc, RubyM.lift_ok_bind, RubyM.lift_ok_bind, RubyM.bind_assoc,
        RubyM.get_bind, RubyM.get_bind]
      split <;> rfl

/-- A statement that the call runs, as it is before anything is bound to it. -/
def Reaches (host : Host) (compile : List UInt8 → C → Compiled C) (vars : BatchVars)
    (sql : RString) (rounds : Nat) (db : Database C) (m : Machine C) : Prop :=
  ∃ sql' k b db₁ stmt db₂ s, sql.strip host = .ok sql' ∧
    CallM.firstRounds BatchState.isFinished (batchBody host compile vars.var (.ok vars.length)) k
      ⟨sql', none⟩ rounds db = some (.ok b, db₁) ∧
    b.isFinished = false ∧ prepare host compile b.sql rounds db₁ = some (.ok stmt, db₂) ∧
    db₂.statement stmt.id = some s ∧ m = db₂.machine s

/-- If the statement is stepped, what is bound to it then is what `bind_params` binds. -/
def BoundAsAsked (host : Host) (vars : BatchVars) (m : Machine C) : Prop :=
  ∀ m', bindCounted host vars.var (.ok vars.length) m = (.ok (), m') →
    ∃ asked, Statement.bindParams host [vars.var] m = (.ok (), asked) ∧
      m'.statement.bindings = asked.statement.bindings

/-- The variables can be bound to the statement, and all of its parameters are NULL then. -/
def LeavesNull (host : Host) (vars : BatchVars) (m : Machine C) : Prop :=
  ∃ asked, Statement.bindParams host [vars.var] m = (.ok (), asked) ∧
    asked.statement.bindings = fun _ => .value .null

variable {host : Host} {compile : List UInt8 → C → Compiled C} {vars : BatchVars} {sql : RString}
  {rounds : Nat} {db : Database C}

/-- A statement that was prepared just now. -/
theorem prepare_eq_ok {stmt : Prepared} {db' : Database C} {s : Statement C}
    (hprepare : prepare host compile sql rounds db = some (.ok stmt, db'))
    (hstmt : db'.statement stmt.id = some s) : ∃ program, s = { program } := by
  rw [prepare, CallM.get_bind] at hprepare
  split at hprepare
  · obtain ⟨text, db₁, htext, hprepare⟩ := CallM.bind_eq_ok hprepare
    obtain ⟨-, rfl⟩ := Prod.mk.inj (Option.some.inj htext)
    cases hcompile : compile (sqlRead text) db.content with
    | statement program tail =>
        rw [hcompile] at hprepare
        obtain ⟨hid, rfl⟩ := Prod.mk.inj (Option.some.inj hprepare)
        obtain rfl := Outcome.ok.inj hid
        rw [Database.statement_push] at hstmt
        exact ⟨program, (Option.some.inj hstmt).symm⟩
    | noStatement tail =>
        rw [hcompile] at hprepare
        obtain ⟨hid, rfl⟩ := Prod.mk.inj (Option.some.inj hprepare)
        obtain rfl := Outcome.ok.inj hid
        rw [Database.statement_push] at hstmt
        cases hstmt
    | error status errmsg =>
        rw [hcompile] at hprepare
        obtain ⟨u, db₂, hcheck, -⟩ := CallM.bind_eq_ok hprepare
        have hok := (Prod.mk.inj (Option.some.inj hcheck)).1
        exact absurd ((check_eq_ok_iff _ _).mp hok) status.2
  · cases hprepare

theorem Reaches.bindings {m : Machine C} (h : Reaches host compile vars sql rounds db m) :
    m.statement.bindings = fun _ => .value .null := by
  obtain ⟨_, _, _, _, _, _, s, -, -, -, hprepare, hstmt, rfl⟩ := h
  obtain ⟨program, rfl⟩ := prepare_eq_ok hprepare hstmt
  rfl

/-- What `execute_batch` does with a statement to which nothing is bound yet. -/
theorem boundAsAsked_iff {m : Machine C} (hnull : m.statement.bindings = fun _ => .value .null) :
    BoundAsAsked host vars m ↔
      vars.length = m.statement.program.parameterCount ∨ LeavesNull host vars m := by
  have hbind : bindCounted host vars.var (.ok vars.length) m =
      (if vars.length = m.statement.program.parameterCount then
        Statement.bindParams host [vars.var] else pure () : StatementM C Unit) m := by
    rw [bindCounted, RubyM.lift_ok_bind, RubyM.get_bind]
  by_cases hlength : vars.length = m.statement.program.parameterCount
  · rw [if_pos hlength] at hbind
    refine iff_of_true (fun m' hrun => ?_) (Or.inl hlength)
    exact ⟨m', hbind.symm.trans hrun, rfl⟩
  · rw [if_neg hlength] at hbind
    constructor
    · intro h
      obtain ⟨asked, hasked, hbindings⟩ := h m hbind
      exact Or.inr ⟨asked, hasked, hbindings.symm.trans hnull⟩
    · rintro (h | ⟨asked, hasked, hbindings⟩) m' hrun
      · exact absurd h hlength
      · obtain ⟨-, rfl⟩ := Prod.mk.inj (hbind.symm.trans hrun)
        exact ⟨asked, hasked, hnull.trans hbindings.symm⟩

/-- `execute_batch` binds its variables to every statement that it runs with parameters
exactly when each of these has as many parameters as there are variables, or would have
been left with NULLs by them. -/
theorem batch_applies_iff (host : Host) (compile : List UInt8 → C → Compiled C) (vars : BatchVars)
    (sql : RString) (rounds : Nat) (db : Database C) :
    (∀ m, Reaches host compile vars sql rounds db m → 1 ≤ m.statement.program.parameterCount →
        BoundAsAsked host vars m) ↔
      ∀ m, Reaches host compile vars sql rounds db m → 1 ≤ m.statement.program.parameterCount →
        vars.length = m.statement.program.parameterCount ∨ LeavesNull host vars m :=
  forall_congr' fun _ => forall_congr' fun h => imp_congr_right fun _ => boundAsAsked_iff h.bindings

/-- `insert into t values (?, ?)`. -/
def insertPair : Program Nat := Statement.mixedProgram [.anonymous, .anonymous]

/-- `[[1, 2]]`. -/
def nestedPair : BatchVars := .array [.array [.value (.integer 1), .value (.integer 2)]]

/-- Two NULLs are inserted instead of the two values. -/
theorem nestedPair_not_applied :
    ¬ ∀ m, Reaches Statement.littleHost (knows knownText insertPair) nestedPair
        (utf8String knownText) 1 (newDatabase 0) m → 1 ≤ m.statement.program.parameterCount →
      BoundAsAsked Statement.littleHost nestedPair m := by
  intro h
  have hreaches : Reaches Statement.littleHost (knows knownText insertPair) nestedPair
      (utf8String knownText) 1 (newDatabase 0) ((newDatabase 0).machine { program := insertPair }) :=
    ⟨_, 0, _, _, _, _, _, rfl, rfl, rfl, rfl, rfl, rfl⟩
  obtain ⟨asked, hasked, hbindings⟩ := h _ hreaches (by decide) _ rfl
  obtain ⟨-, rfl⟩ := Prod.mk.inj hasked
  exact absurd (congrFun hbindings 1) (by decide)

end Sqlite3Ruby.Query
