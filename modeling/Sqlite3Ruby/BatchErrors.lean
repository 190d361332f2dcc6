import Sqlite3Ruby.Errinfo

/-!
# The exceptions of callbacks in scripts

`execute_batch` steps the statements of a script, and `step` raises the exception that a
callback has left in `rb_errinfo`. `execute_batch2` leaves all to one call of
`sqlite3_exec`, and looks at the status only.

## Implementation notes

A run of `sqlite3_exec` is its callbacks, those of all the statements in order, and its
status. The cell is empty when a script begins.
-/

namespace Sqlite3Ruby.Errinfo

/-! ## The two methods -/

/-- What `sqlite3_exec` returns, with its error message. -/
inductive ExecStatus
  | ok
  | error (status : ErrorStatus) (errmsg : String)

/-- `exec_batch`, once `sqlite3_exec` is back or unwound. -/
def execBatchEnd (callbacks : Callbacks) (status : ExecStatus) : StepEnd :=
  match callbacks.unwound, status with
  | some e, _ => ⟨some (.object e), none⟩
  | none, .error status errmsg => ⟨some (.status status errmsg), none⟩
  | none, .ok => ⟨none, errinfoAfter none callbacks.traces⟩

/-- The step of a statement: its callbacks, and what it answers. -/
structure BatchStep (C : Type) where
  invocations : List Invocation
  answer : Answer C

/-- A run of `execute_batch`: the Ruby code in its callbacks, and how it ends. -/
structure BatchRun where
  traces : List Trace
  last : StepEnd

/-- `execute_batch`, which steps each statement once, up to one that raises. -/
def executeBatchRun {C : Type} (long : SizeofLong) :
    Aggregator.System → List (BatchStep C) → Option BatchRun
  | _, [] => some ⟨[], none, none⟩
  | s, step :: steps => do
      let callbacks ← runAll long s step.invocations
      let last := stepEnd callbacks step.answer
      match last.raises with
      | some _ => some ⟨callbacks.traces, last⟩
      | none => do
          let rest ← executeBatchRun long callbacks.system steps
          some { rest with traces := callbacks.traces ++ rest.traces }

/-- The exception itself is raised, and is not left for a later step. -/
def Reaches (e : ExceptionObject) (last : StepEnd) : Prop :=
  last.raises = some (.object e) ∧ last.errinfo ≠ some e

/-- The callback is the `xFinal` of an aggregate whose `finalize` returns a value that
cannot be posted. -/
def Invocation.misfinalizes (s : Aggregator.System) : Invocation → Prop
  | func _ _ _ => False
  | aggregate ctx event _ => (s.mem.group ctx).misfinalizes event.groupEvent

/-- One of the callbacks is. -/
def Misfinalizes (long : SizeofLong) : Aggregator.System → List Invocation → Prop
  | _, [] => False
  | s, invocation :: is =>
      invocation.misfinalizes s ∨
        ∃ first, invocation.run long s = some first ∧ Misfinalizes long first.system is

/-! ## Callbacks that unwind -/

section Jumps

variable {σ α β : Type}

theorem bind_ne_jump {m : RubyM σ α} {f : α → RubyM σ β} (hm : ∀ s tag, (m s).1 ≠ .jump tag)
    (hf : ∀ a s tag, (f a s).1 ≠ .jump tag) (s : σ) (tag : String) :
    ((m >>= f) s).1 ≠ .jump tag := by
  rcases hrun : m s with ⟨o, t⟩
  cases o with
  | ok a =>
      rw [RubyM.bind_run_ok a f hrun]
      exact hf a t tag
  | raise e =>
      rw [RubyM.bind_run_raise f hrun]
      simp
  | jump tag' =>
      have hjump := hm s tag'
      rw [hrun] at hjump
      exact absurd rfl hjump

end Jumps

theorem setSqlite3FuncResult_ne_jump (long : SizeofLong) (result : Value) (tag : String) :
    setSqlite3FuncResult long result ≠ .jump tag := by
  intro hjump
  have hresult : result.isResult = false := by
    have hreturns := setSqlite3FuncResult_returns_iff long result
    simpa [hjump] using hreturns
  cases result with
  | nil => cases hresult
  | integer n => cases hresult
  | float d => cases hresult
  | string s => cases hresult
  | true_ => cases hjump
  | false_ => cases hjump
  | object klass toInt => cases hjump

theorem aggregateInstance_ne_jump (ctx : Aggregator.Context) (new : Outcome Aggregator.HandlerId)
    (s : Aggregator.State) (tag : String) :
    (Aggregator.aggregateInstance ctx new s).1 ≠ .jump tag := by
  rw [Aggregator.aggregateInstance, RubyM.get_bind]
  cases s.slot ctx with
  | null => simp [Aggregator.rbFatal]
  | qfalse => simp
  | qnil => simp [Aggregator.rbFatal]
  | inst i => simp

theorem aggregateInstanceDestroy_ne_jump (ctx : Aggregator.Context) (s : Aggregator.State)
    (tag : String) : (Aggregator.aggregateInstanceDestroy ctx s).1 ≠ .jump tag := by
  rw [Aggregator.aggregateInstanceDestroy, RubyM.get_bind]
  cases s.slot ctx with
  | null => simp
  | qfalse => simp
  | qnil => simp [Aggregator.rbFatal]
  | inst i =>
      by_cases hmem : i ∈ s.instances ctx.aw
      · simp [hmem]
      · simp [hmem, Aggregator.rbFatal]

theorem finalizeAndPost_ne_jump (long : SizeofLong) (ctx : Aggregator.Context)
    (object : Aggregator.AggregatorInstance) (finalize : Outcome Value) (s : Aggregator.State)
    (tag : String) : (Aggregator.finalizeAndPost long ctx object finalize s).1 ≠ .jump tag := by
  rw [Aggregator.finalizeAndPost]
  split
  · simp
  · cases finalize with
    | raise e => simp [Outcome.rbProtect]
    | jump tag' => simp [Outcome.rbProtect]
    | ok result =>
        cases hresult : setSqlite3FuncResult long result with
        | ok call => simp [hresult]
        | raise e => simp [hresult]
        | jump tag' => exact absurd hresult (setSqlite3FuncResult_ne_jump long result tag')

/-- A callback of an aggregate returns or raises. -/
theorem callback_ne_jump (long : SizeofLong) (ctx : Aggregator.Context)
    (event : Aggregator.GroupEvent) (s : Aggregator.State) (tag : String) :
    (Aggregator.callback long ctx event s).1 ≠ .jump tag := by
  cases event with
  | step args new step =>
      refine bind_ne_jump (aggregateInstance_ne_jump ctx new) (fun i s tag => ?_) s tag
      rw [RubyM.get_bind]
      split
      · simp
      · simp
  | final new finalize =>
      refine bind_ne_jump (aggregateInstance_ne_jump ctx new) (fun i s tag => ?_) s tag
      rw [RubyM.get_bind]
      exact bind_ne_jump (finalizeAndPost_ne_jump long ctx _ finalize)
        (fun _ => aggregateInstanceDestroy_ne_jump ctx) s tag

/-- A callback is unwound exactly when its result cannot be posted. -/
theorem Invocation.unwound_iff {long : SizeofLong} {s : Aggregator.System}
    (hs : Aggregator.Inv s) {invocation : Invocation} {r : Callbacks}
    (h : invocation.run long s = some r) :
    (∃ e, r.unwound = some e) ↔ invocation.misfinalizes s := by
  cases invocation with
  | func callable args made =>
      obtain rfl := Option.some.inj h
      simp [misfinalizes]
  | aggregate ctx event made =>
      rw [run, Option.bind_eq_bind, Option.bind_eq_some_iff] at h
      obtain ⟨t, hstep, h⟩ := h
      have hfinished := (Aggregator.step_serves hs hstep).1
      have hreturns := aggregate_inv_returns_iff long hs hfinished event.groupEvent
      rw [misfinalizes, ← not_iff_not, ← hreturns]
      cases hcallback : (Aggregator.callback long ctx event.groupEvent s.mem).1 with
      | raise e =>
          simp only [hcallback] at h
          obtain rfl := Option.some.inj h
          simp
      | ok u =>
          simp only [hcallback] at h
          obtain rfl := Option.some.inj h
          simp
      | jump tag => exact absurd hcallback (callback_ne_jump long ctx event.groupEvent s.mem tag)

theorem Invocation.inv_run {long : SizeofLong} {s : Aggregator.System} (hs : Aggregator.Inv s)
    {invocation : Invocation} {r : Callbacks} (h : invocation.run long s = some r) :
    Aggregator.Inv r.system := by
  cases invocation with
  | func callable args made =>
      obtain rfl := Option.some.inj h
      exact hs
  | aggregate ctx event made =>
      rw [run, Option.bind_eq_bind, Option.bind_eq_some_iff] at h
      obtain ⟨t, hstep, h⟩ := h
      have ht := Aggregator.inv_step hs hstep
      split at h
      · obtain rfl := Option.some.inj h
        exact ht
      · obtain rfl := Option.some.inj h
        exact ht

/-- So are the callbacks of a run. -/
theorem runAll_unwound_iff {long : SizeofLong} {s : Aggregator.System} (hs : Aggregator.Inv s)
    {is : List Invocation} {r : Callbacks} (h : runAll long s is = some r) :
    (∃ e, r.unwound = some e) ↔ Misfinalizes long s is := by
  induction is generalizing s r with
  | nil =>
      obtain rfl := Option.some.inj h
      simp [Misfinalizes]
  | cons invocation is ih =>
      rw [runAll, Option.bind_eq_bind, Option.bind_eq_some_iff] at h
      obtain ⟨first, hfirst, h⟩ := h
      have hunwound := Invocation.unwound_iff hs hfirst
      rw [Misfinalizes, ← hunwound]
      cases hstop : first.unwound with
      | some e =>
          rw [hstop] at h
          obtain rfl := Option.some.inj h
          simp [hstop]
      | none =>
          rw [hstop] at h
          obtain ⟨rest, hrest, h⟩ := Option.bind_eq_some_iff.mp h
          obtain rfl := Option.some.inj h
          have hlater := ih (Invocation.inv_run hs hfirst) hrest
          simpa [hfirst] using hlater

/-! ## What is raised -/

/-- What the cell holds in the end has left a callback. -/
theorem mem_raisedBy {traces : List Trace} {e : ExceptionObject}
    (h : errinfoAfter none traces = some e) : e ∈ raisedBy traces := by
  induction traces using List.reverseRecOn with
  | nil => cases h
  | append_singleton traces t ih =>
      rw [errinfoAfter_append] at h
      rw [raisedBy, List.filterMap_append, List.mem_append]
      cases hraised : t.raised with
      | some e' =>
          rw [errinfoAfter_raised hraised] at h
          obtain rfl := Option.some.inj h
          exact Or.inr (by simp [hraised])
      | none =>
          -- code that returns empties the cell or leaves it alone
          left
          apply ih
          cases hrescued : t.rescued.getLast? with
          | none =>
              rw [List.getLast?_eq_none_iff] at hrescued
              simpa [errinfoAfter, Trace.changes, hraised, hrescued] using h
          | some e' =>
              obtain ⟨before, hrescued⟩ := List.getLast?_eq_some_iff.mp hrescued
              rw [errinfoAfter_eq] at h
              simp [Trace.changes, hraised, hrescued, Change.errinfo] at h

theorem execBatch_reaches_iff {long : SizeofLong} {s : Aggregator.System} {is : List Invocation}
    {r : Callbacks} {e : ExceptionObject} (h : runAll long s is = some r)
    (hraised : raisedBy r.traces = [e]) (status : ExecStatus) :
    Reaches e (execBatchEnd r status) ↔ ∃ e, r.unwound = some e := by
  unfold Reaches execBatchEnd
  cases hunwound : r.unwound with
  | some e' =>
      have hmem := mem_raisedBy (runAll_unwound h hunwound none)
      rw [hraised, List.mem_singleton] at hmem
      simp [hmem]
  | none => cases status <;> simp

/-- `step` raises what is in the cell, and leaves nothing there. -/
theorem reraise_raises_iff {C : Type} (errinfo : Option ExceptionObject) (answer : Answer C)
    (e : ExceptionObject) :
    (reraise errinfo answer).raises = some (.object e) ↔ errinfo = some e := by
  cases errinfo with
  | some e' => simp [reraise]
  | none => cases answer <;> simp [reraise]

theorem reraise_errinfo {C : Type} (errinfo : Option ExceptionObject) (answer : Answer C) :
    (reraise errinfo answer).errinfo = none := by
  cases errinfo with
  | some e => rfl
  | none => cases answer <;> rfl

/-- `execute_batch` raises what its callbacks leave in the cell. -/
theorem executeBatchRun_raises {C : Type} {long : SizeofLong} {s : Aggregator.System}
    {steps : List (BatchStep C)} {r : BatchRun} (h : executeBatchRun long s steps = some r) :
    (∀ e, r.last.raises = some (.object e) ↔ errinfoAfter none r.traces = some e) ∧
      r.last.errinfo = none := by
  induction steps generalizing s r with
  | nil =>
      obtain rfl := Option.some.inj h
      simp [errinfoAfter]
  | cons step steps ih =>
      rw [executeBatchRun, Option.bind_eq_bind, Option.bind_eq_some_iff] at h
      obtain ⟨callbacks, hrun, h⟩ := h
      have hend := stepEnd_eq (fun _ hunwound => runAll_unwound hrun hunwound none) step.answer
      have hraises := reraise_raises_iff (errinfoAfter none callbacks.traces) step.answer
      simp only [hend] at h
      cases hlast : (reraise (errinfoAfter none callbacks.traces) step.answer).raises with
      | some raised =>
          rw [hlast] at h
          obtain rfl := Option.some.inj h
          exact ⟨hraises, reraise_errinfo _ _⟩
      | none =>
          rw [hlast] at h
          obtain ⟨rest, hrest, h⟩ := Option.bind_eq_some_iff.mp h
          obtain rfl := Option.some.inj h
          have hempty : errinfoAfter none callbacks.traces = none := by
            cases hcell : errinfoAfter none callbacks.traces with
            | none => rfl
            | some e => rw [(hraises e).mpr hcell] at hlast; cases hlast
          obtain ⟨hlater, herrinfo⟩ := ih hrest
          refine ⟨fun e => ?_, herrinfo⟩
          rw [errinfoAfter_append, hempty]
          exact hlater e

/-- The exception of a callback leaves `execute_batch2` exactly when it is the one of a
`finalize` whose value cannot be posted, and `execute_batch` exactly when later code leaves it
in the cell. -/
theorem batch_exceptions_iff {C : Type} {long : SizeofLong} {s : Aggregator.System}
    (hs : Aggregator.Inv s) {is : List Invocation} {r : Callbacks}
    (hexec : runAll long s is = some r) {e : ExceptionObject} (hraised : raisedBy r.traces = [e])
    (status : ExecStatus) {steps : List (BatchStep C)} {r' : BatchRun}
    (hbatch : executeBatchRun long s steps = some r') {e' : ExceptionObject}
    (hraised' : raisedBy r'.traces = [e']) :
    (Reaches e (execBatchEnd r status) ↔ Misfinalizes long s is) ∧
      (Reaches e' r'.last ↔ FirstStands r'.traces) := by
  constructor
  · rw [execBatch_reaches_iff hexec hraised]
    exact runAll_unwound_iff hs hexec
  · obtain ⟨hraises, herrinfo⟩ := executeBatchRun_raises hbatch
    rw [Reaches, hraises, herrinfo, ← errinfoAfter_none_iff, hraised']
    simp

/-- `finalize` returns `true`. -/
def finalizeTrue : List Invocation :=
  [.aggregate ⟨0, 0⟩ (.step [.integer 1] (handler 7) ⟨[], .ok .nil⟩) 3,
    .aggregate ⟨0, 0⟩ (.final (handler 7) ⟨[], .ok .true_⟩) 4]

theorem finalizeTrue_reaches :
    ∃ r r' e, runAll .eight Aggregator.initial finalizeTrue = some r ∧
      executeBatchRun .eight Aggregator.initial [⟨finalizeTrue, rubyExceptionOccurred⟩] = some r' ∧
      Reaches e (execBatchEnd r .ok) ∧ Reaches e r'.last := by
  let e : ExceptionObject := ⟨4, ⟨.RuntimeError, "can't return TrueClass"⟩⟩
  have hexec : ∃ r, runAll .eight Aggregator.initial finalizeTrue = some r ∧
      raisedBy r.traces = [e] := ⟨_, rfl, rfl⟩
  have hbatch : ∃ r', executeBatchRun .eight Aggregator.initial
      [⟨finalizeTrue, rubyExceptionOccurred⟩] = some r' ∧
        r'.traces = [⟨[], none⟩, ⟨[], none⟩, ⟨[], none⟩, ⟨[], some e⟩] := ⟨_, rfl, rfl⟩
  obtain ⟨r, hexec, hraised⟩ := hexec
  obtain ⟨r', hbatch, htraces⟩ := hbatch
  have hraised' : raisedBy r'.traces = [e] := by
    rw [htraces]
    rfl
  have hiff := batch_exceptions_iff Aggregator.inv_initial hexec hraised .ok hbatch hraised'
  refine ⟨r, r', e, hexec, hbatch, hiff.1.mpr ?_, hiff.2.mpr ?_⟩
  · refine Or.inr ⟨_, rfl, Or.inl ?_⟩
    exact ⟨.true_, rfl, rfl⟩
  · rw [htraces]
    simp [FirstStands]

/-- `select f(1)`, where `f` raises. -/
def raisingCall : List Invocation :=
  [.func (fun _ => ⟨[], .error stepError⟩) [.integer 1] 2]

/-- `execute_batch` raises the exception, and `execute_batch2` the placeholder. -/
theorem raisingCall_masked :
    ∃ r r', runAll .eight Aggregator.initial raisingCall = some r ∧
      raisedBy r.traces = [stepError] ∧
      executeBatchRun .eight Aggregator.initial [⟨raisingCall, rubyExceptionOccurred⟩] = some r' ∧
      Reaches stepError r'.last ∧
      ¬ Reaches stepError
        (execBatchEnd r (.error ⟨1, Nat.one_ne_zero⟩ "Ruby Exception occurred")) := by
  refine ⟨_, _, rfl, rfl, rfl, ⟨rfl, ?_⟩, ?_⟩
  · intro hpending
    cases hpending
  · rintro ⟨hraises, -⟩
    cases hraises

end Sqlite3Ruby.Errinfo
