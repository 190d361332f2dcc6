import Sqlite3Ruby.Placeholders
import Sqlite3Ruby.Unwinding.Query

/-!
# `execute` and the past of a statement

Between two executions a statement keeps its machine, its flag and what is bound to it.
`execute` resets the first two; values for all the parameters replace the third. The reset
halts a machine that is in the middle of its execution, and this calls back: the callbacks may
raise once more, and may change the content.

## Implementation notes

A result set steps its statement, so that one which has been read in part is a number
of steps. The content of the database may have been changed from elsewhere at any time.
-/

namespace Sqlite3Ruby

namespace Statement

variable {C : Type} (u : Unwinding C) (host : Host)

/-- A call, returning or raising, whose own calls into SQLite may be unwound. -/
def Op.runUnwinding : Op → Machine C → Machine C
  | step, m => (Unwinding.step u m).2
  | bindParam key value, m => (Statement.bindParam host key value m).2
  | bindParams vars, m => (Statement.bindParams host vars m).2
  | resetBang, m => (Unwinding.resetBang u m).2
  | clearBindingsBang, m => (Statement.clearBindingsBang m).2
  | execute vars, m => (Unwinding.execute u host vars m).2

/-- What can have happened to an open statement. -/
inductive Past (C : Type)
  | call (op : Op)
  | elsewhere (content : C)

def Past.run : Past C → Machine C → Machine C
  | call op, m => op.runUnwinding u host m
  | elsewhere content, m => { m with content := content }

/-- A prepared statement after all this. -/
def afterPast (m : Machine C) (past : List (Past C)) : Machine C :=
  past.foldl (fun m p => p.run u host m) m

/-- The program is the same, and so is what is bound outside of its parameters. -/
def SameOutside (m m' : Machine C) : Prop :=
  m'.statement.program = m.statement.program ∧
    ∀ i, i < 1 ∨ m.statement.program.parameterCount < i →
      m'.statement.bindings i = m.statement.bindings i

/-! ## What the past cannot change -/

theorem SameOutside.refl (m : Machine C) : SameOutside m m := ⟨rfl, fun _ _ => rfl⟩

theorem SameOutside.trans {m m' m'' : Machine C} (h : SameOutside m m')
    (h' : SameOutside m' m'') : SameOutside m m'' := by
  refine ⟨h'.1.trans h.1, fun i hi => ?_⟩
  rw [← h.2 i hi]
  exact h'.2 i (h.1 ▸ hi)

theorem sqlite3Bind_outside (index : Int) (stored : Stored) (m : Machine C) :
    SameOutside m (sqlite3Bind index stored m).2 := by
  unfold sqlite3Bind
  split
  · exact .refl m
  · split
    · exact .refl m
    · rename_i hindex
      refine ⟨rfl, fun i hi => ?_⟩
      have hne : i ≠ index.toNat := by omega
      exact Function.update_of_ne hne ..

theorem unwound_outside (m : Machine C) (content : C) : SameOutside m (m.unwound content) :=
  ⟨rfl, fun _ _ => rfl⟩

theorem step_outside (m : Machine C) : SameOutside m (Unwinding.step u m).2 := by
  cases hdone : m.statement.doneP with
  | true =>
      rw [Unwinding.step, RubyM.get_bind, if_pos hdone]
      exact .refl m
  | false =>
      cases hcall : u.step m.statement.program m.statement.vm.earlier m.view with
      | none =>
          rw [Unwinding.step_back u hcall]
          exact ⟨step_program m, fun i _ => congrFun (step_bindings m) i⟩
      | some r =>
          rw [Unwinding.step_unwound u hdone hcall]
          exact unwound_outside m r.2

theorem resetBang_outside (m : Machine C) : SameOutside m (Unwinding.resetBang u m).2 := by
  have hreset (m : Machine C) : SameOutside m (Unwinding.sqlite3VdbeReset u m).2 := by
    unfold Unwinding.sqlite3VdbeReset
    split
    · split
      · exact unwound_outside m _
      · exact ⟨rfl, fun _ _ => rfl⟩
    · exact .refl m
  refine RubyM.bind_respects SameOutside .trans (fun m => ?_) (fun _ m => ⟨rfl, fun _ _ => rfl⟩) m
  exact RubyM.bind_respects SameOutside .trans hreset (fun _ m => ⟨rfl, fun _ _ => rfl⟩) m

theorem execute_outside (vars : List BindVar) (m : Machine C) :
    SameOutside m (Unwinding.execute u host vars m).2 := by
  rw [Unwinding.execute_eq]
  refine RubyM.bind_respects SameOutside .trans (resetBang_outside u) (fun _ m => ?_) m
  refine RubyM.bind_respects SameOutside .trans
    (bindEach_respects host SameOutside .refl .trans sqlite3Bind_outside 1 (flattenAll vars))
    (fun _ m => ?_) m
  rw [Unwinding.stepWithoutColumns, RubyM.get_bind]
  split
  · rw [RubyM.bind_pure_snd]
    exact step_outside u m
  · exact .refl m

/-- Nothing is bound to a statement but its parameters. -/
structure OnlyParameters (program : Program C) (m : Machine C) : Prop where
  same : m.statement.program = program
  outside : ∀ i, i < 1 ∨ program.parameterCount < i → m.statement.bindings i = .value .null

theorem OnlyParameters.of_same {program : Program C} {m m' : Machine C}
    (hm : OnlyParameters program m) (h : SameOutside m m') : OnlyParameters program m' :=
  ⟨h.1.trans hm.same, fun i hi => (h.2 i (hm.same ▸ hi)).trans (hm.outside i hi)⟩

theorem OnlyParameters.op {program : Program C} {m : Machine C} (hm : OnlyParameters program m)
    (op : Op) : OnlyParameters program (op.runUnwinding u host m) := by
  cases op with
  | step => exact hm.of_same (step_outside u m)
  | bindParam key value =>
      exact hm.of_same (bindParam_respects host SameOutside .refl .trans sqlite3Bind_outside key
        value m)
  | bindParams vars =>
      exact hm.of_same (bindEach_respects host SameOutside .refl .trans sqlite3Bind_outside 1
        (flattenAll vars) m)
  | resetBang => exact hm.of_same (resetBang_outside u m)
  | clearBindingsBang => exact ⟨hm.same, fun _ _ => rfl⟩
  | execute vars => exact hm.of_same (execute_outside u host vars m)

theorem OnlyParameters.past {program : Program C} {m : Machine C} (hm : OnlyParameters program m)
    (past : List (Past C)) : OnlyParameters program (afterPast u host m past) := by
  induction past generalizing m with
  | nil => exact hm
  | cons p past ih =>
      cases p with
      | call op => exact ih (hm.op u host op)
      | elsewhere content => exact ih ⟨hm.same, hm.outside⟩

/-! ## Binding all the parameters -/

/-- How binding ends depends on the program, and on whether the machine is ready. -/
theorem bindParam_fst {m m' : Machine C} (hprogram : m.statement.program = m'.statement.program)
    (hready : m.statement.vm.isReady = m'.statement.vm.isReady) (key : ParamKey) (value : Value) :
    (bindParam host key value m).1 = (bindParam host key value m').1 := by
  have hbind (index : Int) (stored : Stored) :
      (sqlite3Bind index stored m).1 = (sqlite3Bind index stored m').1 := by
    rw [sqlite3Bind, sqlite3Bind, hprogram, hready]
    split
    · rfl
    · split
      · rfl
      · rfl
  rw [bindParam, RubyM.get_bind, RubyM.get_bind, hprogram]
  refine RubyM.bind_fst_congr rfl fun index _ => ?_
  change ((if index = 0 then _ else _ : StatementM C Unit) m).1 =
    ((if index = 0 then _ else _ : StatementM C Unit) m').1
  split
  · rfl
  · refine RubyM.bind_fst_congr rfl fun call _ => ?_
    exact RubyM.bind_fst_congr (hbind _ _) fun status _ => rfl

theorem bindEntries_fst {m m' : Machine C} (hprogram : m.statement.program = m'.statement.program)
    (hready : m.statement.vm.isReady = m'.statement.vm.isReady)
    (entries : List (ParamKey × Value)) :
    (bindEntries host entries m).1 = (bindEntries host entries m').1 := by
  induction entries generalizing m m' with
  | nil => rfl
  | cons entry entries ih =>
      obtain ⟨_, hbound⟩ := bindParam_same host entry.1 entry.2 m
      obtain ⟨_, hbound'⟩ := bindParam_same host entry.1 entry.2 m'
      refine RubyM.bind_fst_congr (bindParam_fst host hprogram hready _ _) fun _ _ => ?_
      rw [hbound, hbound']
      exact ih hprogram hready

/-- Values for all the parameters leave nothing of what was bound before. -/
theorem write_all {program : Program C} {values : List Value}
    (hlength : values.length = program.parameterCount) {writes : List (Nat × Stored)}
    (hwrites : List.Forall₂ (Writes host program) (positional 1 values) writes)
    {bindings bindings' : Bindings}
    (houtside : ∀ i, i < 1 ∨ program.parameterCount < i → bindings i = bindings' i) :
    Bindings.write bindings writes = Bindings.write bindings' writes := by
  obtain ⟨hindices, -⟩ := writes_positional (n := 1) hwrites
  have hnodup : (writes.map (·.1)).Nodup := hindices ▸ List.nodup_range'
  funext i
  by_cases hi : i ∈ writes.map (·.1)
  · obtain ⟨write, hwrite, rfl⟩ := List.mem_map.mp hi
    rw [write_of_mem hnodup hwrite, write_of_mem hnodup hwrite]
  · rw [write_of_not_mem hi, write_of_not_mem hi]
    rw [hindices, List.mem_range'_1, hlength] at hi
    exact houtside i (by omega)

/-! ## Two machines that differ in their record -/

/-- The machines differ in what has been recorded of them at most. -/
def SameButEvents (m m' : Machine C) : Prop := ∃ events, m' = m.withEvents events

theorem SameButEvents.next {m m' : Machine C} (h : SameButEvents m m') : m'.next = m.next := by
  obtain ⟨events, rfl⟩ := h
  rfl

theorem SameButEvents.stepped {m m' : Machine C} (h : SameButEvents m m') :
    SameButEvents m.stepped m'.stepped := by
  obtain ⟨events, rfl⟩ := h
  refine ⟨(m.withEvents events).stepped.events, ?_⟩
  have hnext : (m.withEvents events).next = m.next := rfl
  unfold Machine.stepped
  rw [hnext]
  cases m.next with
  | row pending values content => rfl
  | done pending content => rfl
  | error pending status errmsg content => rfl

theorem SameButEvents.step {m m' : Machine C} (h : SameButEvents m m') :
    (Statement.step m).1 = (Statement.step m').1 ∧
      SameButEvents (Statement.step m).2 (Statement.step m').2 := by
  have hdone : m'.statement.doneP = m.statement.doneP := by
    obtain ⟨events, rfl⟩ := h
    rfl
  obtain ⟨events, hstepped⟩ := h.stepped
  rw [step_fst, step_fst, step_snd, step_snd, hdone, h.next, hstepped]
  refine ⟨rfl, ?_⟩
  split
  · exact h
  · split
    · exact ⟨events, rfl⟩
    · split
      · exact ⟨events, rfl⟩
      · split
        · exact ⟨events, rfl⟩
        · exact ⟨events ++ [.reset], rfl⟩

theorem SameButEvents.content {m m' : Machine C} (h : SameButEvents m m') :
    m'.content = m.content := by
  obtain ⟨events, rfl⟩ := h
  rfl

theorem assignments_values (index : Int) (values : List Value) :
    assignments index (flattenAll (values.map .value)) = positional index values := by
  induction values generalizing index with
  | nil => rfl
  | cons v values ih =>
      rw [List.map_cons, flattenAll, BindVar.flatten, List.singleton_append, assignments, ih]
      rfl

/-- A statement that has not been stepped since its last reset. -/
def atStart (program : Program C) (content : C) (bindings : Bindings) (events : List VmEvent) :
    Machine C :=
  ⟨content, { program, bindings }, events⟩

theorem bindParams_atStart_content (vars : List BindVar) (program : Program C) (content : C)
    (bindings : Bindings) (events : List VmEvent) :
    (bindParams host vars (atStart program content bindings events)).2.content = content := by
  obtain ⟨_, hbound⟩ :=
    bindEach_same host 1 (flattenAll vars) (atStart program content bindings events)
  exact congrArg Machine.content hbound

/-- Binding all the parameters goes the same way whatever was bound before, and then the
same is bound. -/
theorem bindParams_atStart {program : Program C} {values : List Value}
    (hlength : values.length = program.parameterCount) {bindings bindings' : Bindings}
    (houtside : ∀ i, i < 1 ∨ program.parameterCount < i → bindings i = bindings' i) (content : C)
    (events events' : List VmEvent) :
    let run := bindParams host (values.map .value)
    (run (atStart program content bindings events)).1 =
        (run (atStart program content bindings' events')).1 ∧
      ∀ m, run (atStart program content bindings events) = (.ok (), m) →
        ∃ bound, m = atStart program content bound events ∧
          run (atStart program content bindings' events') =
            (.ok (), atStart program content bound events') := by
  intro run
  refine ⟨?_, fun m hrun => ?_⟩
  · change (bindEach host 1 _ _).1 = (bindEach host 1 _ _).1
    rw [bindEach_eq]
    refine bindEntries_fst host ?_ ?_ _ <;> rfl
  · obtain ⟨writes, hwrites, hready, rfl⟩ := (bindParams_eq_ok_iff host).mp hrun
    have hpositional : List.Forall₂ (Writes host program) (positional 1 values) writes := by
      rwa [assignments_values] at hwrites
    refine ⟨Bindings.write bindings writes, rfl, ?_⟩
    refine (bindParams_eq_ok_iff host).mpr ⟨writes, hwrites, fun _ => rfl, ?_⟩
    rw [write_all host hlength hpositional houtside]
    rfl

/-- A step of one is unwound as that of the other is. -/
theorem SameButEvents.unwindingStep {m m' : Machine C} (h : SameButEvents m m') :
    (Unwinding.step u m).1 = (Unwinding.step u m').1 ∧
      SameButEvents (Unwinding.step u m).2 (Unwinding.step u m').2 := by
  obtain ⟨events, rfl⟩ := h
  cases hdone : m.statement.doneP with
  | true =>
      have hdone' : (m.withEvents events).statement.doneP = true := hdone
      rw [Unwinding.step, RubyM.get_bind, RubyM.get_bind, if_pos hdone, if_pos hdone']
      exact ⟨rfl, events, rfl⟩
  | false =>
      have hdone' : (m.withEvents events).statement.doneP = false := hdone
      cases hcall : u.step m.statement.program m.statement.vm.earlier m.view with
      | none =>
          have hcall' : u.step (m.withEvents events).statement.program
              (m.withEvents events).statement.vm.earlier (m.withEvents events).view = none := hcall
          rw [Unwinding.step_back u hcall, Unwinding.step_back u hcall']
          exact SameButEvents.step ⟨events, rfl⟩
      | some r =>
          have hcall' : u.step (m.withEvents events).statement.program
              (m.withEvents events).statement.vm.earlier (m.withEvents events).view =
              some (r.1, r.2) := hcall
          rw [Unwinding.step_unwound u hdone hcall, Unwinding.step_unwound u hdone' hcall']
          exact ⟨rfl, _, rfl⟩

theorem SameButEvents.stepWithoutColumns {m m' : Machine C} (h : SameButEvents m m') :
    (Unwinding.stepWithoutColumns u m).1 = (Unwinding.stepWithoutColumns u m').1 ∧
      SameButEvents (Unwinding.stepWithoutColumns u m).2 (Unwinding.stepWithoutColumns u m').2 := by
  have hprogram : m'.statement.program = m.statement.program := by
    obtain ⟨events, rfl⟩ := h
    rfl
  rw [Unwinding.stepWithoutColumns, RubyM.get_bind, RubyM.get_bind, hprogram]
  by_cases hcolumns : m.statement.program.columns.isEmpty = true
  · rw [if_pos hcolumns, RubyM.bind_pure_snd, RubyM.bind_pure_snd]
    obtain ⟨houtcome, hmachine⟩ := h.unwindingStep u
    exact ⟨RubyM.bind_fst_congr houtcome fun _ _ => rfl, hmachine⟩
  · rw [if_neg hcolumns]
    exact ⟨rfl, h⟩

/-- Where the reset comes back and leaves the content, `execute` goes on from the start. -/
theorem execute_eq_afterReset (vars : List BindVar) {m : Machine C} (h : u.ResetsQuietly m) :
    Unwinding.execute u host vars m =
      Unwinding.afterReset u host vars
        (atStart m.statement.program m.content m.statement.bindings (m.events ++ [.reset])) := by
  rw [Unwinding.execute_eq, RubyM.bind_run_ok () _ (Unwinding.resetBang_quiet u h)]
  rfl

/-- What `execute` does after the reset depends on what was bound before only through the
record. -/
theorem afterReset_atStart {program : Program C} {values : List Value}
    (hlength : values.length = program.parameterCount) {bindings bindings' : Bindings}
    (houtside : ∀ i, i < 1 ∨ program.parameterCount < i → bindings i = bindings' i) {content : C}
    {events events' : List VmEvent} {o o' : Outcome Unit} {n n' : Machine C}
    (hafter : Unwinding.afterReset u host (values.map .value)
      (atStart program content bindings events) = (o, n))
    (hafter' : Unwinding.afterReset u host (values.map .value)
      (atStart program content bindings' events') = (o', n')) :
    o = o' ∧ n.content = n'.content ∧ (o = .ok () → SameButEvents n n') := by
  obtain ⟨hfst, hok⟩ := bindParams_atStart host hlength houtside content events events'
  have hcontent := bindParams_atStart_content host (values.map .value) program content
  rcases hrun : bindParams host (values.map .value) (atStart program content bindings events)
    with ⟨p, m⟩
  rcases hrun' : bindParams host (values.map .value) (atStart program content bindings' events')
    with ⟨p', m'⟩
  have hm : m.content = content := by
    rw [← hcontent bindings events, hrun]
  have hm' : m'.content = content := by
    rw [← hcontent bindings' events', hrun']
  rw [hrun, hrun'] at hfst
  obtain rfl : p = p' := hfst
  rw [Unwinding.afterReset] at hafter hafter'
  cases p with
  | raise e =>
      rw [RubyM.bind_run_raise _ hrun] at hafter
      rw [RubyM.bind_run_raise _ hrun'] at hafter'
      obtain ⟨rfl, rfl⟩ := Prod.mk.inj hafter
      obtain ⟨rfl, rfl⟩ := Prod.mk.inj hafter'
      exact ⟨rfl, hm.trans hm'.symm, fun h => by cases h⟩
  | jump tag =>
      rw [RubyM.bind_run_jump _ hrun] at hafter
      rw [RubyM.bind_run_jump _ hrun'] at hafter'
      obtain ⟨rfl, rfl⟩ := Prod.mk.inj hafter
      obtain ⟨rfl, rfl⟩ := Prod.mk.inj hafter'
      exact ⟨rfl, hm.trans hm'.symm, fun h => by cases h⟩
  | ok a =>
      obtain ⟨bound, rfl, hbound⟩ := hok m hrun
      obtain ⟨-, rfl⟩ := Prod.mk.inj (hrun'.symm.trans hbound)
      have hsame : SameButEvents (atStart program content bound events)
          (atStart program content bound events') := ⟨events', rfl⟩
      obtain ⟨houtcome, hmachine⟩ := hsame.stepWithoutColumns u
      rw [RubyM.bind_run_ok a _ hrun] at hafter
      rw [RubyM.bind_run_ok a _ hrun'] at hafter'
      rw [hafter, hafter'] at houtcome hmachine
      exact ⟨houtcome, hmachine.content.symm, fun _ => hmachine⟩

/-- `execute` with values for all the parameters, on a statement with a past and on a new
one. -/
theorem execute_like_new {program : Program C} {values : List Value}
    (hlength : values.length = program.parameterCount) {m n n' : Machine C}
    (hm : OnlyParameters program m) (hquiet : u.ResetsQuietly m) {events : List VmEvent}
    {o o' : Outcome Unit} (hrun : Unwinding.execute u host (values.map .value) m = (o, n))
    (hrun' : Unwinding.execute u host (values.map .value) ⟨m.content, { program }, events⟩ =
      (o', n')) :
    o = o' ∧ n.content = n'.content ∧ (o = .ok () → SameButEvents n n') := by
  have hnew : u.ResetsQuietly ⟨m.content, { program }, events⟩ :=
    Unwinding.resetsQuietly_of_not_active u rfl
  rw [execute_eq_afterReset u host _ hquiet, hm.same] at hrun
  rw [execute_eq_afterReset u host _ hnew] at hrun'
  exact afterReset_atStart u host hlength hm.outside hrun hrun'

end Statement

/-! ## Executing and reading all rows -/

namespace Query

variable {C : Type} {α : Type} (u : Unwinding C)

/-- `execute(*values).to_a`. -/
def executeToA (host : Host) (stmt : Prepared) (values : List Value) : QueryM C (List Row) := do
  let rs ← Unwinding.statementExecute u host stmt (values.map .value)
  Unwinding.toA u rs

/-- What a call answers, and the content it leaves. -/
def effect (call : QueryM C α) (rounds : Nat) (db : Database C) : Option (Outcome α × C) :=
  (call rounds db).map fun r => (r.1, r.2.content)

/-- The statements are in the same state, in databases with the same content. -/
def SameStatement (stmt stmt' : Prepared) (db db' : Database C) : Prop :=
  ∃ s s', db.statement stmt.id = some s ∧ db'.statement stmt'.id = some s' ∧
    Statement.SameButEvents (db.machine s) (db'.machine s')

variable {stmt stmt' : Prepared}

theorem onStatement_relates {method : StatementM C α}
    (h : RubyM.Relates Statement.SameButEvents method method) :
    CallM.Relates (SameStatement stmt stmt') (onStatement stmt method)
      (onStatement stmt' method) := by
  rintro rounds db db' ⟨s, s', hs, hs', hsame⟩
  obtain ⟨houtcome, hmachine⟩ := h _ _ hsame
  rw [onStatement_run hs, onStatement_run hs']
  refine .some ⟨houtcome, _, _, Database.statement_put hs _, Database.statement_put hs' _, ?_⟩
  exact hmachine

theorem readStatement_relates (read : Statement C → α) :
    RubyM.Relates Statement.SameButEvents
      (do let m ← RubyM.get; pure (read m.statement) : StatementM C α)
      (do let m ← RubyM.get; pure (read m.statement) : StatementM C α) := by
  rintro m _ ⟨events, rfl⟩
  exact ⟨rfl, events, rfl⟩

theorem step_relates :
    CallM.Relates (SameStatement (C := C) stmt stmt') (Unwinding.step u stmt)
      (Unwinding.step u stmt') :=
  onStatement_relates fun _ _ h => h.unwindingStep u

/-- Result sets of statements in the same state hand out the same. -/
theorem next_relates (isHash : Bool) :
    CallM.Relates (SameStatement (C := C) stmt stmt') (Unwinding.next u ⟨stmt, isHash⟩)
      (Unwinding.next u ⟨stmt', isHash⟩) := by
  cases isHash with
  | false => exact (step_relates u).bind fun row => CallM.relates_pure _
  | true =>
      refine (step_relates u).bind fun row => ?_
      refine (onStatement_relates (readStatement_relates (·.doneP))).bind fun done => ?_
      cases done with
      | true => exact CallM.relates_pure none
      | false =>
          refine (onStatement_relates (readStatement_relates (·.program.columns))).bind
            fun columns => ?_
          cases row with
          | some row => exact CallM.relates_pure _
          | none => exact CallM.relates_lift _

theorem toA_relates (isHash : Bool) :
    CallM.Relates (SameStatement (C := C) stmt stmt') (Unwinding.toA u ⟨stmt, isHash⟩)
      (Unwinding.toA u ⟨stmt', isHash⟩) :=
  (next_relates u isHash).whileSome (fun rows row => CallM.relates_pure (rows ++ [row])) []

/-- Calls that go the same way have the same effect. -/
theorem effect_of_relates {call call' : QueryM C α}
    (h : CallM.Relates (SameStatement stmt stmt') call call') {db db' : Database C}
    (hsame : SameStatement stmt stmt' db db') (rounds : Nat) :
    effect call rounds db = effect call' rounds db' := by
  have hrel := h rounds db db' hsame
  rw [effect, effect]
  rcases hrun : call rounds db with _ | ⟨o, t⟩
  · rw [hrun] at hrel
    rcases hrun' : call' rounds db' with _ | y
    · rfl
    · rw [hrun'] at hrel
      cases hrel
  · rw [hrun] at hrel
    rcases hrun' : call' rounds db' with _ | ⟨o', t'⟩
    · rw [hrun'] at hrel
      cases hrel
    · rw [hrun'] at hrel
      cases hrel with
      | some h =>
          obtain ⟨rfl, s, s', -, -, hmachine⟩ := h
          have hcontent : t'.content = t.content := hmachine.content
          change some (o, t.content) = some (o, t'.content)
          rw [hcontent]

/-- How `execute(*values).to_a` goes on after `execute`. -/
theorem executeToA_run (host : Host) (values : List Value) (rounds : Nat) {db : Database C}
    {s : Statement C} (h : db.statement stmt.id = some s) {o : Outcome Unit} {m : Machine C}
    (hexecute : Statement.Unwinding.execute u host (values.map .value) (db.machine s) = (o, m)) :
    executeToA u host stmt values rounds db =
      (CallM.lift o >>= fun _ => Unwinding.toA u ⟨stmt, db.resultsAsHash⟩) rounds
        (db.put stmt.id m) := by
  have hrun := onStatement_run h (Statement.Unwinding.execute u host (values.map .value)) rounds
  rw [hexecute] at hrun
  rw [executeToA, Unwinding.statementExecute, CallM.bind_assoc]
  cases o with
  | ok a => exact CallM.bind_run_ok a _ hrun
  | raise e => exact CallM.bind_run_raise _ hrun
  | jump tag => exact CallM.bind_run_jump _ hrun

/-- An insert of one value that has been executed and stepped, after which the content
was changed from elsewhere. -/
def usedInsert : Machine Nat :=
  Statement.afterPast Unwinding.calm Statement.littleHost
    (Statement.prepared (Statement.mixedProgram [.anonymous]) 0)
    [.call (.execute [.value (.integer 1)]), .call .step, .elsewhere 5]

/-- It has been executed with 1, and stepped. -/
def raisedAgg : Machine Unit :=
  Statement.afterPast Unwinding.refusesOne Statement.littleHost
    (Statement.prepared Unwinding.selectAgg ())
    [.call (.execute [.value (.integer 1)]), .call .step]

end Query

end Sqlite3Ruby
