import Sqlite3Ruby.Aggregator.Runs

/-!
# The callbacks that SQLite makes

The extension registers seven C functions with SQLite. Each calls the user's
code; a raise that is not caught in it unwinds through the frames of SQLite.

## Implementation notes

The user's code is an arbitrary function into the ways a call can end. A
conversion that Ruby makes without raising is a plain function.
-/

namespace Sqlite3Ruby

def SQLITE_OK : Int := 0
def SQLITE_DENY : Int := 1
def SQLITE_IGNORE : Int := 2

/-- `rb_str_new2`: the bytes, as a binary string. -/
def rbStrNew (bytes : List UInt8) : RString := ⟨.string, .ascii8bit, bytes⟩

/-- `tracefunc`. -/
def tracefunc (traceHandler : RString → Outcome Value) (sql : List UInt8) : Outcome Unit := do
  let _ ← traceHandler (rbStrNew sql)
  pure ()

/-- `rb_sqlite3_busy_handler`. -/
def rbSqlite3BusyHandler (busyHandler : Int → Outcome Value) (count : Int) : Outcome Int := do
  let result ← busyHandler count
  pure (if result = .false_ then 0 else 1)

/-- An authorizer, called with the action and four strings that may be missing. -/
abbrev Authorizer := Int → List (Option RString) → Outcome Value

/-- `rb_sqlite3_auth`. -/
def rbSqlite3Auth (long : SizeofLong) (authorizer : Authorizer) (action : Int)
    (a b c d : Option (List UInt8)) : Outcome Int := do
  let result ← authorizer action ([a, b, c, d].map (·.map rbStrNew))
  match result with
  | .integer n => if long.isFixnum n then checkInt n else pure SQLITE_IGNORE
  | .true_ => pure SQLITE_OK
  | .false_ => pure SQLITE_DENY
  | _ => pure SQLITE_IGNORE

/-- A string for the comparator. `exportToEnc` is the conversion to the default
internal encoding, if there is one; it leaves a string alone that it cannot convert. -/
def comparatorString (exportToEnc : Option (RString → RString)) (bytes : List UInt8) : RString :=
  let str : RString := ⟨.string, .utf8, bytes⟩
  match exportToEnc with
  | some export_ => export_ str
  | none => str

/-- `rb_comparator_func`. -/
def rbComparatorFunc (exportToEnc : Option (RString → RString))
    (compare : RString → RString → Outcome Value) (a b : List UInt8) : Outcome Int := do
  let comparison ← compare (comparatorString exportToEnc a) (comparatorString exportToEnc b)
  num2int comparison

/-- The values that are a C `int` for `NUM2INT`. -/
def Value.FitsInt : Value → Prop
  | .integer n => -2 ^ 31 ≤ n ∧ n < 2 ^ 31
  | .float d =>
      d.isFinite = true ∧
        -2 ^ 31 ≤ d.units.tdiv Binary64.one ∧ d.units.tdiv Binary64.one < 2 ^ 31
  | .object _ toInt => ∃ n, toInt = .ok n ∧ -2 ^ 31 ≤ n ∧ n < 2 ^ 31
  | _ => False

theorem num2int_returns_iff (v : Value) : (num2int v).Returns ↔ v.FitsInt := by
  cases v with
  | integer n => exact checkInt_returns_iff n
  | float d =>
      rw [num2int, Value.FitsInt]
      by_cases hfinite : d.isFinite = true
      · rw [if_pos hfinite, checkInt_returns_iff]
        exact (and_iff_right hfinite).symm
      · rw [if_neg hfinite]
        exact iff_of_false (Outcome.not_returns_raise _) fun h => hfinite h.1
  | object klass toInt =>
      rw [num2int, Outcome.returns_bind_iff]
      exact exists_congr fun n => and_congr_right fun _ => checkInt_returns_iff n
  | nil => exact iff_of_false (Outcome.not_returns_raise _) id
  | true_ => exact iff_of_false (Outcome.not_returns_raise _) id
  | false_ => exact iff_of_false (Outcome.not_returns_raise _) id
  | string s => exact iff_of_false (Outcome.not_returns_raise _) id

/-- A context that is not finalized, in a memory that callbacks leave. Its slot
is null when SQLite has no memory for it. -/
structure OpenContext where
  mem : Aggregator.State
  inv : Aggregator.MemInv mem
  ctx : Aggregator.Context
  not_finished : mem.slot ctx ≠ .qnil

/-- A callback, with what it is called with and what the user's code does. -/
inductive Callback
  | func (callable : Callable) (args : List SqliteValue)
  | aggregate (context : OpenContext) (event : Aggregator.GroupEvent)
  | comparator (exportToEnc : Option (RString → RString))
      (compare : RString → RString → Outcome Value) (a b : List UInt8)
  | busyHandler (handler : Int → Outcome Value) (count : Int)
  | trace (handler : RString → Outcome Value) (sql : List UInt8)
  | auth (authorizer : Authorizer) (action : Int) (a b c d : Option (List UInt8))

/-- How the C function ends. -/
def Callback.invoke (long : SizeofLong) : Callback → Outcome Unit
  | func callable args => do let _ ← rbSqlite3Func long callable args
  | aggregate context event => (Aggregator.callback long context.ctx event context.mem).1
  | comparator exportToEnc compare a b => do let _ ← rbComparatorFunc exportToEnc compare a b
  | busyHandler handler count => do let _ ← rbSqlite3BusyHandler handler count
  | trace handler sql => tracefunc handler sql
  | auth authorizer action a b c d => do let _ ← rbSqlite3Auth long authorizer action a b c d

/-- What the user's code must do for the C function to return. -/
def Callback.Tame (long : SizeofLong) : Callback → Prop
  | func _ _ => True
  | aggregate context event =>
      context.mem.slot context.ctx ≠ .null ∧ ¬ (context.mem.group context.ctx).misfinalizes event
  | comparator exportToEnc compare a b =>
      ∃ result, compare (comparatorString exportToEnc a) (comparatorString exportToEnc b) =
        .ok result ∧ result.FitsInt
  | busyHandler handler count => (handler count).Returns
  | trace handler sql => (handler (rbStrNew sql)).Returns
  | auth authorizer action a b c d =>
      ∃ result, authorizer action ([a, b, c, d].map (·.map rbStrNew)) = .ok result ∧
        ∀ n, result = .integer n → long.isFixnum n = true → -2 ^ 31 ≤ n ∧ n < 2 ^ 31

/-! ## Each callback -/

/-- Everything that a function does is protected. -/
theorem rbSqlite3Func_returns (long : SizeofLong) (callable : Callable)
    (args : List SqliteValue) : (rbSqlite3Func long callable args).Returns := by
  rw [rbSqlite3Func]
  split
  · exact Outcome.returns_ok _
  · exact Outcome.returns_ok _

/-- Discarding the result changes nothing about returning. -/
theorem returns_discard_iff {α : Type} (o : Outcome α) :
    (do let _ ← o : Outcome Unit).Returns ↔ o.Returns := by
  rw [Outcome.returns_bind_iff]
  exact exists_congr fun a => and_iff_left (Outcome.returns_ok ())

theorem OpenContext.isLive (context : OpenContext) (hnull : context.mem.slot context.ctx ≠ .null) :
    (context.mem.slot context.ctx).isLive = true := by
  cases hslot : context.mem.slot context.ctx with
  | null => exact absurd hslot hnull
  | qnil => exact absurd hslot context.not_finished
  | qfalse => rfl
  | inst i => rfl

theorem aggregateInstance_of_null {s : Aggregator.State} {ctx : Aggregator.Context}
    (hslot : s.slot ctx = .null) (new : Outcome Aggregator.HandlerId) :
    Aggregator.aggregateInstance ctx new s =
      (.raise ⟨.fatal, "SQLite is out-of-memory"⟩, s) := by
  rw [Aggregator.aggregateInstance, RubyM.get_bind, hslot]
  rfl

theorem aggregate_returns_iff (long : SizeofLong) (context : OpenContext)
    (event : Aggregator.GroupEvent) :
    (Aggregator.callback long context.ctx event context.mem).1.Returns ↔
      context.mem.slot context.ctx ≠ .null ∧
        ¬ (context.mem.group context.ctx).misfinalizes event := by
  by_cases hnull : context.mem.slot context.ctx = .null
  · refine iff_of_false ?_ fun h => h.1 hnull
    cases event with
    | step args new step =>
        rw [Aggregator.callback, Aggregator.aggregatorStep,
          RubyM.bind_run_raise _ (aggregateInstance_of_null hnull new)]
        exact Outcome.not_returns_raise _
    | final new finalize =>
        rw [Aggregator.callback, Aggregator.aggregatorFinal,
          RubyM.bind_run_raise _ (aggregateInstance_of_null hnull new)]
        exact Outcome.not_returns_raise _
  · have hlive := context.isLive hnull
    rw [and_iff_right hnull]
    cases event with
    | step args new step =>
        obtain ⟨t, hrun, -⟩ := Aggregator.aggregatorStep_run context.inv hlive long args new step
        rw [Aggregator.callback, hrun]
        simp [Aggregator.Group.misfinalizes]
    | final new finalize =>
        obtain ⟨o, t, i, hrun, -, hreturns, -⟩ :=
          Aggregator.aggregatorFinal_run context.inv hlive long new finalize
        rw [Aggregator.callback, hrun]
        exact hreturns

/-- Only a `finalize` with a value that cannot be posted unwinds. -/
theorem aggregate_inv_returns_iff (long : SizeofLong) {s : Aggregator.System}
    (hinv : Aggregator.Inv s) {ctx : Aggregator.Context} (hctx : s.finished ctx = false)
    (event : Aggregator.GroupEvent) :
    (Aggregator.callback long ctx event s.mem).1.Returns ↔
      ¬ (s.mem.group ctx).misfinalizes event := by
  have hlive := hinv.slot ctx hctx
  have hdone : s.mem.slot ctx ≠ .qnil := fun h => by simp [h, Aggregator.Slot.isLive] at hlive
  have hnull : s.mem.slot ctx ≠ .null := fun h => by simp [h, Aggregator.Slot.isLive] at hlive
  exact (aggregate_returns_iff long ⟨s.mem, hinv.mem, ctx, hdone⟩ event).trans (and_iff_right hnull)

/-- This holds in any run of callbacks. -/
theorem aggregate_run_returns_iff {long : SizeofLong}
    {as : List (Aggregator.Context × Aggregator.GroupEvent)} {s : Aggregator.System}
    (hrun : StepSystem.exec (Aggregator.step long) Aggregator.initial as = some s)
    {ctx : Aggregator.Context} (hctx : s.finished ctx = false) (event : Aggregator.GroupEvent) :
    (Aggregator.callback long ctx event s.mem).1.Returns ↔
      ¬ (s.mem.group ctx).misfinalizes event :=
  aggregate_inv_returns_iff long
    (StepSystem.exec_invariant (fun _ _ _ => Aggregator.inv_step) Aggregator.inv_initial hrun) hctx
    event

theorem rbSqlite3Auth_returns_iff (long : SizeofLong) (authorizer : Authorizer) (action : Int)
    (a b c d : Option (List UInt8)) :
    (rbSqlite3Auth long authorizer action a b c d).Returns ↔
      (Callback.auth authorizer action a b c d).Tame long := by
  rw [rbSqlite3Auth, Outcome.returns_bind_iff, Callback.Tame]
  refine exists_congr fun result => and_congr_right ?_
  intro _
  cases result with
  | integer n =>
      by_cases hfix : long.isFixnum n = true
      · simp [hfix, checkInt_returns_iff]
      · simp [hfix]
  | nil => simp
  | true_ => simp
  | false_ => simp
  | float d => simp
  | string s => simp
  | object klass toInt => simp

/-- A callback returns to SQLite exactly when the user's code does what its hook
relies on without protecting itself. -/
theorem callback_returns_iff (long : SizeofLong) (c : Callback) :
    (c.invoke long).Returns ↔ c.Tame long := by
  cases c with
  | func callable args =>
      exact (returns_discard_iff _).trans (iff_of_true (rbSqlite3Func_returns _ _ _) trivial)
  | aggregate context event => exact aggregate_returns_iff long context event
  | comparator exportToEnc compare a b =>
      apply (returns_discard_iff _).trans
      rw [rbComparatorFunc, Outcome.returns_bind_iff]
      exact exists_congr fun result => and_congr_right fun _ => num2int_returns_iff result
  | busyHandler handler count =>
      apply (returns_discard_iff _).trans
      rw [rbSqlite3BusyHandler, Outcome.returns_bind_iff]
      exact exists_congr fun result => and_iff_left (Outcome.returns_ok _)
  | trace handler sql =>
      rw [Callback.invoke, tracefunc, Outcome.returns_bind_iff]
      exact exists_congr fun result => and_iff_left (Outcome.returns_ok _)
  | auth authorizer action a b c d =>
      exact (returns_discard_iff _).trans (rbSqlite3Auth_returns_iff long authorizer action a b c d)

/-- A comparator that raises. -/
theorem comparatorRaise_unwinds :
    ¬ ((Callback.comparator none (fun _ _ => .raise ⟨.ArgumentError, "comparison failed"⟩)
      [97] [98]).invoke .eight).Returns := by
  decide

end Sqlite3Ruby
