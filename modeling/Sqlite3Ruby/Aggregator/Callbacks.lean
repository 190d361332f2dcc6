import Mathlib.Logic.Function.Basic
import Sqlite3Ruby.Function

/-!
# The callbacks of an aggregate function

SQLite keeps one zeroed slot for each aggregate context. `xStep` and `xFinal`
put an `AggregatorInstance` there on the first call, call the handler through
it and take it out at the end.

## Implementation notes

Objects are numbered in the order they are made. What the user's code does when
it is called comes with each callback. The Ruby calls and the posted results
are recorded with the context they belong to.
-/

namespace Sqlite3Ruby.Aggregator

abbrev WrapperId := Nat
abbrev InstanceId := Nat
abbrev HandlerId := Nat

/-- An aggregate context: its number, and the wrapper that is its user data. -/
structure Context where
  aw : WrapperId
  number : Nat
  deriving DecidableEq

/-- The word that `sqlite3_aggregate_context` points to, or no memory at all. -/
inductive Slot
  | null
  | qfalse
  | qnil
  | inst (i : InstanceId)
  deriving DecidableEq

/-- The instance variables of an `AggregatorInstance`. -/
structure AggregatorInstance where
  handlerInstance : Option HandlerId
  excStatus : Nat

/-- A call of the user's code. -/
inductive RubyCall
  | new (aw : WrapperId)
  | step (handler : Option HandlerId) (params : List Value)
  | finalize (handler : Option HandlerId)
  deriving DecidableEq

structure State where
  instances : WrapperId → List InstanceId
  objects : InstanceId → AggregatorInstance
  nextInstance : InstanceId
  slot : Context → Slot
  calls : List (Context × RubyCall)
  posted : List (Context × FuncResult)

abbrev AggregatorM := RubyM State

/-- `rb_fatal`. -/
def rbFatal {α : Type} (message : String) : AggregatorM α := RubyM.lift (.raise ⟨.fatal, message⟩)

def State.call (s : State) (ctx : Context) (c : RubyCall) : State :=
  { s with calls := s.calls ++ [(ctx, c)] }

def State.post (s : State) (ctx : Context) (result : FuncResult) : State :=
  { s with posted := s.posted ++ [(ctx, result)] }

def State.setSlot (s : State) (ctx : Context) (slot : Slot) : State :=
  { s with slot := Function.update s.slot ctx slot }

def State.setObject (s : State) (i : InstanceId) (object : AggregatorInstance) : State :=
  { s with objects := Function.update s.objects i object }

def State.setInstances (s : State) (aw : WrapperId) (instances : List InstanceId) : State :=
  { s with instances := Function.update s.instances aw instances }

/-- The first call of a context: `new` under `rb_protect`, and an instance that
is pushed on `-instances` and put into the slot. -/
def State.newInstance (s : State) (ctx : Context) (new : Outcome HandlerId) : State :=
  let i := s.nextInstance
  let s := { s.call ctx (.new ctx.aw) with nextInstance := i + 1 }
  let s := s.setObject i ⟨new.rbProtect.1, new.rbProtect.2⟩
  (s.setInstances ctx.aw (s.instances ctx.aw ++ [i])).setSlot ctx (.inst i)

/-- `rb_sqlite3_aggregate_instance`. -/
def aggregateInstance (ctx : Context) (new : Outcome HandlerId) : AggregatorM InstanceId := do
  let s ← RubyM.get
  match s.slot ctx with
  | .null => rbFatal "SQLite is out-of-memory"
  | .qfalse => do
      RubyM.modify fun s => s.newInstance ctx new
      pure s.nextInstance
  | .qnil => rbFatal "SQLite called us back on an already destroyed aggregate instance"
  | .inst i => pure i

/-- `rb_sqlite3_aggregate_instance_destroy`. -/
def aggregateInstanceDestroy (ctx : Context) : AggregatorM Unit := do
  let s ← RubyM.get
  match s.slot ctx with
  | .null | .qfalse => pure ()
  | .qnil => rbFatal "attempt to destroy aggregate instance twice"
  | .inst i => do
      RubyM.modify fun s => s.setObject i { s.objects i with handlerInstance := none }
      if i ∈ s.instances ctx.aw then
        RubyM.modify fun s =>
          (s.setInstances ctx.aw ((s.instances ctx.aw).filter (· ≠ i))).setSlot ctx .qnil
      else rbFatal "must be in instances at that point"

/-- `rb_sqlite3_aggregator_step`. -/
def aggregatorStep (ctx : Context) (args : List SqliteValue) (new : Outcome HandlerId)
    (step : Outcome Value) : AggregatorM Unit := do
  let i ← aggregateInstance ctx new
  let s ← RubyM.get
  let object := s.objects i
  if object.excStatus ≠ 0 then pure ()
  else
    RubyM.modify fun s =>
      (s.call ctx (.step object.handlerInstance (args.map sqlite3val2rb))).setObject i
        { object with excStatus := step.rbProtect.2 }

/-- The part of `rb_sqlite3_aggregator_final` that calls `finalize` and posts the
result. The conversion of the result is not protected. -/
def finalizeAndPost (long : SizeofLong) (ctx : Context) (object : AggregatorInstance)
    (finalize : Outcome Value) : AggregatorM Unit := do
  if object.excStatus ≠ 0 then
    RubyM.modify fun s => s.post ctx (.error "Ruby Exception occurred")
  else do
    RubyM.modify fun s => s.call ctx (.finalize object.handlerInstance)
    match finalize.rbProtect with
    | (some result, 0) => do
        let call ← RubyM.lift (setSqlite3FuncResult long result)
        RubyM.modify fun s => s.post ctx (.value call)
    | _ => RubyM.modify fun s => s.post ctx (.error "Ruby Exception occurred")

/-- `rb_sqlite3_aggregator_final`. -/
def aggregatorFinal (long : SizeofLong) (ctx : Context) (new : Outcome HandlerId)
    (finalize : Outcome Value) : AggregatorM Unit := do
  let i ← aggregateInstance ctx new
  let s ← RubyM.get
  finalizeAndPost long ctx (s.objects i) finalize
  aggregateInstanceDestroy ctx

/-! ## One group on its own -/

/-- A callback in one group, with what the user's code does if it is called. -/
inductive GroupEvent
  | step (args : List SqliteValue) (new : Outcome HandlerId) (step : Outcome Value)
  | final (new : Outcome HandlerId) (finalize : Outcome Value)

def GroupEvent.new : GroupEvent → Outcome HandlerId
  | step _ new _ => new
  | final new _ => new

def GroupEvent.isFinal : GroupEvent → Bool
  | step _ _ _ => false
  | final _ _ => true

/-- Where a group stands. -/
inductive Group
  | fresh
  | serving (handler : HandlerId)
  | failed
  | done
  deriving DecidableEq

/-- The group once `new` has been called, if it had not been. -/
def Group.start (g : Group) (e : GroupEvent) : Group :=
  match g with
  | fresh =>
      match e.new with
      | .ok handler => serving handler
      | _ => failed
  | g => g

/-- A group that has started, after the rest of a callback. -/
def Group.after (g : Group) (e : GroupEvent) : Group :=
  match e with
  | .final _ _ => done
  | .step _ _ step =>
      match g with
      | serving handler => if step.Returns then serving handler else failed
      | g => g

/-- The calls of the handler in a group that has started. -/
def Group.serve (g : Group) (e : GroupEvent) : List RubyCall :=
  match g, e with
  | serving handler, .step args _ _ => [.step (some handler) (args.map sqlite3val2rb)]
  | serving handler, .final _ _ => [.finalize (some handler)]
  | _, _ => []

/-- The result posted in a group that has started. Nothing is posted for an
object that is no result. -/
def Group.answer (long : SizeofLong) (g : Group) (e : GroupEvent) : List FuncResult :=
  match e with
  | .step _ _ _ => []
  | .final _ finalize =>
      match g, finalize with
      | done, _ => []
      | serving _, .ok result =>
          match setSqlite3FuncResult long result with
          | .ok call => [.value call]
          | _ => []
      | _, _ => [.error "Ruby Exception occurred"]

def Group.next (g : Group) (e : GroupEvent) : Group := (g.start e).after e

/-- The calls of the user's code that a callback makes. -/
def Group.calls (aw : WrapperId) (g : Group) (e : GroupEvent) : List RubyCall :=
  (if g = fresh then [.new aw] else []) ++ (g.start e).serve e

/-- The result that a callback posts. -/
def Group.posts (long : SizeofLong) (g : Group) (e : GroupEvent) : List FuncResult :=
  (g.start e).answer long e

/-! ## The memory between callbacks -/

/-- Where a group with this instance stands. -/
def AggregatorInstance.group : AggregatorInstance → Group
  | ⟨some handler, 0⟩ => .serving handler
  | _ => .failed

/-- Where the group of a context stands, as its slot and its instance tell it. -/
def State.group (s : State) (ctx : Context) : Group :=
  match s.slot ctx with
  | .qfalse => .fresh
  | .qnil | .null => .done
  | .inst i => (s.objects i).group

/-- The instances in the slots are pinned, no two contexts share one, and one
without an exception has a handler. -/
structure MemInv (s : State) : Prop where
  pinned : ∀ ctx i, s.slot ctx = .inst i → i ∈ s.instances ctx.aw
  numbered : ∀ aw, ∀ i ∈ s.instances aw, i < s.nextInstance
  unshared : ∀ ctx ctx' i, s.slot ctx = .inst i → s.slot ctx' = .inst i → ctx = ctx'
  handler : ∀ ctx i, s.slot ctx = .inst i → (s.objects i).excStatus = 0 →
    ∃ handler, (s.objects i).handlerInstance = some handler

theorem AggregatorInstance.group_of_status {object : AggregatorInstance}
    (h : object.excStatus ≠ 0) : object.group = .failed := by
  obtain ⟨handlerInstance, excStatus⟩ := object
  cases excStatus with
  | zero => exact absurd rfl h
  | succ n => cases handlerInstance <;> rfl

theorem group_of_inst {s : State} {ctx : Context} {i : InstanceId} (hslot : s.slot ctx = .inst i) :
    s.group ctx = (s.objects i).group := by
  rw [State.group, hslot]

/-- A group is fresh exactly as long as its slot is zero. -/
theorem group_eq_fresh_iff (s : State) (ctx : Context) :
    s.group ctx = .fresh ↔ s.slot ctx = .qfalse := by
  cases hslot : s.slot ctx with
  | inst i =>
      rw [group_of_inst hslot]
      refine iff_of_false ?_ (by simp)
      unfold AggregatorInstance.group
      split <;> simp
  | null => simp [State.group, hslot]
  | qfalse => simp [State.group, hslot]
  | qnil => simp [State.group, hslot]

/-- The instance of a group without an exception knows the handler. -/
theorem MemInv.object_cases {s : State} (h : MemInv s) {ctx : Context} {i : InstanceId}
    (hslot : s.slot ctx = .inst i) :
    (s.objects i).excStatus ≠ 0 ∧ s.group ctx = .failed ∨
      ∃ handler, s.objects i = ⟨some handler, 0⟩ ∧ s.group ctx = .serving handler := by
  rw [group_of_inst hslot]
  by_cases hstatus : (s.objects i).excStatus = 0
  · obtain ⟨handler, hhandler⟩ := h.handler ctx i hslot hstatus
    have hobject : s.objects i = ⟨some handler, 0⟩ := by
      rw [← hhandler, ← hstatus]
    exact Or.inr ⟨handler, hobject, by rw [hobject]; rfl⟩
  · exact Or.inl ⟨hstatus, AggregatorInstance.group_of_status hstatus⟩

/-- A group is where its slot and its instance are. -/
theorem group_congr {s t : State} {ctx : Context} (hslot : t.slot ctx = s.slot ctx)
    (hobjects : ∀ i, s.slot ctx = .inst i → t.objects i = s.objects i) :
    t.group ctx = s.group ctx := by
  unfold State.group
  rw [hslot]
  cases h : s.slot ctx with
  | inst i => simp only [hobjects i h]
  | null => rfl
  | qfalse => rfl
  | qnil => rfl

theorem MemInv.instance_lt {s : State} (h : MemInv s) {ctx : Context} {i : InstanceId}
    (hslot : s.slot ctx = .inst i) : i < s.nextInstance :=
  h.numbered _ _ (h.pinned ctx i hslot)

/-- A record of calls and results is no part of the invariant. -/
theorem MemInv.of_memory {s t : State} (h : MemInv s) (hinstances : t.instances = s.instances)
    (hobjects : t.objects = s.objects) (hnext : t.nextInstance = s.nextInstance)
    (hslot : t.slot = s.slot) : MemInv t := by
  constructor
  · simpa only [hslot, hinstances] using h.pinned
  · simpa only [hinstances, hnext] using h.numbered
  · simpa only [hslot] using h.unshared
  · simpa only [hslot, hobjects] using h.handler

theorem newInstance_slot (s : State) (ctx : Context) (new : Outcome HandlerId) :
    (s.newInstance ctx new).slot = Function.update s.slot ctx (.inst s.nextInstance) := rfl

theorem newInstance_objects (s : State) (ctx : Context) (new : Outcome HandlerId) :
    (s.newInstance ctx new).objects =
      Function.update s.objects s.nextInstance ⟨new.rbProtect.1, new.rbProtect.2⟩ := rfl

theorem newInstance_instances (s : State) (ctx : Context) (new : Outcome HandlerId) :
    (s.newInstance ctx new).instances =
      Function.update s.instances ctx.aw (s.instances ctx.aw ++ [s.nextInstance]) := rfl

/-- A status of zero comes with the value. -/
theorem rbProtect_value {α : Type} {o : Outcome α} (h : o.rbProtect.2 = 0) :
    ∃ a, o.rbProtect.1 = some a := by
  cases o with
  | ok a => exact ⟨a, rfl⟩
  | raise e => cases h
  | jump tag => cases h

theorem MemInv.newInstance {s : State} (h : MemInv s) {ctx : Context} (new : Outcome HandlerId) :
    MemInv (s.newInstance ctx new) := by
  have hother (ctx' : Context) (i : InstanceId) (hne : ctx' ≠ ctx)
      (hslot : (s.newInstance ctx new).slot ctx' = .inst i) : s.slot ctx' = .inst i := by
    rwa [newInstance_slot, Function.update_of_ne hne] at hslot
  have hself (i : InstanceId) (hslot : (s.newInstance ctx new).slot ctx = .inst i) :
      i = s.nextInstance := by
    rw [newInstance_slot, Function.update_self] at hslot
    exact (Slot.inst.inj hslot).symm
  have hmem (aw : WrapperId) (i : InstanceId) :
      i ∈ (s.newInstance ctx new).instances aw ↔
        i ∈ s.instances aw ∨ aw = ctx.aw ∧ i = s.nextInstance := by
    rw [newInstance_instances]
    obtain rfl | haw := eq_or_ne aw ctx.aw
    · simp
    · simp [haw]
  constructor
  · intro ctx' i hslot
    rw [hmem]
    obtain rfl | hctx := eq_or_ne ctx' ctx
    · exact Or.inr ⟨rfl, hself i hslot⟩
    · exact Or.inl (h.pinned ctx' i (hother ctx' i hctx hslot))
  · intro aw i hi
    change i < s.nextInstance + 1
    rcases (hmem aw i).mp hi with hi | ⟨-, rfl⟩
    · exact Nat.lt_succ_of_lt (h.numbered aw i hi)
    · exact Nat.lt_succ_self _
  · intro ctx₁ ctx₂ i h₁ h₂
    obtain rfl | hctx₁ := eq_or_ne ctx₁ ctx
    · by_contra hne
      have hlt := h.instance_lt (hother ctx₂ i (Ne.symm hne) h₂)
      rw [hself i h₁] at hlt
      exact Nat.lt_irrefl _ hlt
    · obtain rfl | hctx₂ := eq_or_ne ctx₂ ctx
      · have hlt := h.instance_lt (hother ctx₁ i hctx₁ h₁)
        rw [hself i h₂] at hlt
        exact absurd hlt (Nat.lt_irrefl _)
      · exact h.unshared ctx₁ ctx₂ i (hother ctx₁ i hctx₁ h₁) (hother ctx₂ i hctx₂ h₂)
  · intro ctx' i hslot hstatus
    rw [newInstance_objects] at hstatus ⊢
    obtain rfl | hctx := eq_or_ne ctx' ctx
    · obtain rfl := hself i hslot
      rw [Function.update_self] at hstatus ⊢
      exact rbProtect_value hstatus
    · have hslot := hother ctx' i hctx hslot
      have hne : i ≠ s.nextInstance := (h.instance_lt hslot).ne
      rw [Function.update_of_ne hne] at hstatus ⊢
      exact h.handler ctx' i hslot hstatus

/-! ## The first call of a context -/

/-- The memory in which a callback finds its instance. -/
def State.prepared (s : State) (ctx : Context) (new : Outcome HandlerId) : State :=
  if s.slot ctx = .qfalse then s.newInstance ctx new else s

/-- A slot that a callback can work with. -/
def Slot.isLive : Slot → Bool
  | .qfalse | .inst _ => true
  | .null | .qnil => false

theorem prepared_slot_of_inst {s : State} {ctx : Context} {i : InstanceId}
    (hslot : s.slot ctx = .inst i) (new : Outcome HandlerId) : s.prepared ctx new = s := by
  simp [State.prepared, hslot]

theorem prepared_of_qfalse {s : State} {ctx : Context} (hslot : s.slot ctx = .qfalse)
    (new : Outcome HandlerId) : s.prepared ctx new = s.newInstance ctx new := by
  simp [State.prepared, hslot]

/-- A callback on a live slot finds its instance. -/
theorem aggregateInstance_run {s : State} {ctx : Context} (hlive : (s.slot ctx).isLive = true)
    (new : Outcome HandlerId) :
    ∃ i, (s.prepared ctx new).slot ctx = .inst i ∧
      aggregateInstance ctx new s = (.ok i, s.prepared ctx new) := by
  rw [aggregateInstance]
  rw [RubyM.get_bind]
  cases hslot : s.slot ctx with
  | null => simp [hslot, Slot.isLive] at hlive
  | qnil => simp [hslot, Slot.isLive] at hlive
  | inst i =>
      rw [prepared_slot_of_inst hslot]
      exact ⟨i, hslot, rfl⟩
  | qfalse =>
      rw [prepared_of_qfalse hslot]
      refine ⟨s.nextInstance, ?_, RubyM.modify_bind _ _ s⟩
      rw [newInstance_slot, Function.update_self]

theorem MemInv.prepared {s : State} (h : MemInv s) (ctx : Context) (new : Outcome HandlerId) :
    MemInv (s.prepared ctx new) := by
  rw [State.prepared]
  split
  · exact h.newInstance new
  · exact h

/-- The group has started, with `new` if it was fresh. -/
theorem prepared_group {s : State} {ctx : Context} (hlive : (s.slot ctx).isLive = true)
    (e : GroupEvent) : (s.prepared ctx e.new).group ctx = (s.group ctx).start e := by
  cases hslot : s.slot ctx with
  | null => simp [hslot, Slot.isLive] at hlive
  | qnil => simp [hslot, Slot.isLive] at hlive
  | inst i =>
      rw [prepared_slot_of_inst hslot]
      have hstarted : s.group ctx ≠ .fresh := by
        rw [ne_eq, group_eq_fresh_iff, hslot]
        simp
      cases hgroup : s.group ctx with
      | fresh => exact absurd hgroup hstarted
      | serving handler => rfl
      | failed => rfl
      | done => rfl
  | qfalse =>
      have hfresh : s.group ctx = .fresh := by rw [State.group, hslot]
      have hnew : (s.newInstance ctx e.new).slot ctx = .inst s.nextInstance := by
        rw [newInstance_slot, Function.update_self]
      rw [prepared_of_qfalse hslot, group_of_inst hnew, newInstance_objects, Function.update_self,
        hfresh, Group.start]
      cases e.new <;> rfl

/-- The groups of the other contexts stand where they were. -/
theorem MemInv.prepared_group_of_ne {s : State} (h : MemInv s) {ctx ctx' : Context}
    (hne : ctx' ≠ ctx) (new : Outcome HandlerId) :
    (s.prepared ctx new).group ctx' = s.group ctx' := by
  rw [State.prepared]
  split
  · refine group_congr ?_ ?_
    · rw [newInstance_slot, Function.update_of_ne hne]
    · intro i hslot
      rw [newInstance_objects, Function.update_of_ne (h.instance_lt hslot).ne]
  · rfl

theorem prepared_calls (s : State) (ctx : Context) (new : Outcome HandlerId) :
    (s.prepared ctx new).calls =
      s.calls ++ if s.slot ctx = .qfalse then [(ctx, .new ctx.aw)] else [] := by
  rw [State.prepared]
  split <;> simp [State.newInstance, State.call, State.setObject, State.setInstances, State.setSlot]

theorem prepared_posted (s : State) (ctx : Context) (new : Outcome HandlerId) :
    (s.prepared ctx new).posted = s.posted := by
  rw [State.prepared]
  split <;> rfl


/-! ## What the callbacks do -/

/-- A callback that leaves the memory alone but for the instance of its group. -/
theorem MemInv.setObject {s t : State} (h : MemInv s) {ctx : Context} {i : InstanceId}
    {object : AggregatorInstance} (hslot : s.slot ctx = .inst i)
    (hobject : object.excStatus = 0 → ∃ handler, object.handlerInstance = some handler)
    (hinstances : t.instances = s.instances) (hnext : t.nextInstance = s.nextInstance)
    (hslots : t.slot = s.slot) (hobjects : t.objects = Function.update s.objects i object) :
    MemInv t := by
  constructor
  · simpa only [hslots, hinstances] using h.pinned
  · simpa only [hinstances, hnext] using h.numbered
  · simpa only [hslots] using h.unshared
  · intro ctx' j hj hstatus
    rw [hslots] at hj
    rw [hobjects] at hstatus ⊢
    obtain rfl | hij := eq_or_ne j i
    · rw [Function.update_self] at hstatus ⊢
      exact hobject hstatus
    · rw [Function.update_of_ne hij] at hstatus ⊢
      exact h.handler ctx' j hj hstatus

/-- The instance of one group is not that of another. -/
theorem MemInv.group_of_ne {s t : State} (h : MemInv s) {ctx ctx' : Context} {i : InstanceId}
    {object : AggregatorInstance} (hslot : s.slot ctx = .inst i) (hne : ctx' ≠ ctx)
    (hslots : t.slot ctx' = s.slot ctx')
    (hobjects : t.objects = Function.update s.objects i object) : t.group ctx' = s.group ctx' := by
  apply group_congr hslots
  intro j hj
  have hij : j ≠ i := by
    rintro rfl
    exact hne (h.unshared ctx' ctx j hj hslot)
  rw [hobjects, Function.update_of_ne hij]

/-- What a callback has to do with the groups: to its own it does what the group
asks for, and to the others nothing. -/
structure Serves (long : SizeofLong) (ctx : Context) (e : GroupEvent) (s t : State) : Prop where
  inv : MemInv t
  calls : t.calls = s.calls ++ ((s.group ctx).calls ctx.aw e).map (ctx, ·)
  posted : t.posted = s.posted ++ ((s.group ctx).posts long e).map (ctx, ·)
  group_of_ne : ∀ ctx', ctx' ≠ ctx → t.group ctx' = s.group ctx'
  slot_of_ne : ∀ ctx', ctx' ≠ ctx → t.slot ctx' = s.slot ctx'

/-- It is enough to serve the group once its instance is found. -/
theorem Serves.of_prepared {long : SizeofLong} {ctx : Context} {e : GroupEvent} {s t : State}
    (h : MemInv s) (hlive : (s.slot ctx).isLive = true) (hinv : MemInv t)
    (hcalls : t.calls = (s.prepared ctx e.new).calls ++
      (((s.prepared ctx e.new).group ctx).serve e).map (ctx, ·))
    (hposted : t.posted = (s.prepared ctx e.new).posted ++
      (((s.prepared ctx e.new).group ctx).answer long e).map (ctx, ·))
    (hgroup : ∀ ctx', ctx' ≠ ctx → t.group ctx' = (s.prepared ctx e.new).group ctx')
    (hslot : ∀ ctx', ctx' ≠ ctx → t.slot ctx' = (s.prepared ctx e.new).slot ctx') :
    Serves long ctx e s t := by
  refine ⟨hinv, ?_, ?_, ?_, ?_⟩
  · rw [hcalls, prepared_calls, prepared_group hlive, Group.calls]
    by_cases hfresh : s.slot ctx = .qfalse
    · simp [hfresh, (group_eq_fresh_iff s ctx).mpr hfresh]
    · simp [hfresh, (group_eq_fresh_iff s ctx).not.mpr hfresh]
  · rw [hposted, prepared_posted, prepared_group hlive, Group.posts]
  · intro ctx' hne
    rw [hgroup ctx' hne, h.prepared_group_of_ne hne]
  · intro ctx' hne
    rw [hslot ctx' hne]
    rw [State.prepared]
    split
    · rw [newInstance_slot, Function.update_of_ne hne]
    · rfl

/-- `xStep` serves its group and keeps it in its slot. -/
theorem aggregatorStep_run {s : State} (h : MemInv s) {ctx : Context}
    (hlive : (s.slot ctx).isLive = true) (long : SizeofLong) (args : List SqliteValue)
    (new : Outcome HandlerId) (step : Outcome Value) :
    ∃ t, aggregatorStep ctx args new step s = (.ok (), t) ∧
      Serves long ctx (.step args new step) s t ∧
      t.group ctx = (s.group ctx).next (.step args new step) ∧
      t.slot = (s.prepared ctx new).slot ∧ t.instances = (s.prepared ctx new).instances := by
  obtain ⟨i, hslot, hrun⟩ := aggregateInstance_run hlive new
  have hprepared := h.prepared ctx new
  have hstart : (s.prepared ctx new).group ctx = (s.group ctx).start (.step args new step) :=
    prepared_group hlive (.step args new step)
  rw [aggregatorStep, RubyM.bind_run_ok i _ hrun, RubyM.get_bind]
  rw [Group.next, ← hstart]
  rcases hprepared.object_cases hslot with ⟨hstatus, hgroup⟩ | ⟨handler, hobject, hgroup⟩
  · refine ⟨s.prepared ctx new, by simp [hstatus], ?_, ?_, rfl, rfl⟩
    · refine .of_prepared h hlive hprepared ?_ ?_ (fun _ _ => rfl) (fun _ _ => rfl)
      · rw [GroupEvent.new, hgroup]
        simp [Group.serve]
      · simp [GroupEvent.new, Group.answer]
    · rw [hgroup]
      rfl
  · let t := ((s.prepared ctx new).call ctx (.step (some handler) (args.map sqlite3val2rb))).setObject
      i ⟨some handler, step.rbProtect.2⟩
    have hinv : MemInv t := hprepared.setObject hslot (fun _ => ⟨handler, rfl⟩) rfl rfl rfl rfl
    have htslot : t.slot ctx = .inst i := hslot
    refine ⟨t, by simp [hobject, t], ?_, ?_, rfl, rfl⟩
    · refine .of_prepared h hlive hinv ?_ ?_ ?_ (fun _ _ => rfl)
      · rw [GroupEvent.new, hgroup]
        rfl
      · simp [GroupEvent.new, Group.answer, t, State.setObject, State.call]
      · intro ctx' hne
        exact hprepared.group_of_ne hslot hne rfl rfl
    · rw [group_of_inst htslot, hgroup]
      have htobject : t.objects i = ⟨some handler, step.rbProtect.2⟩ := Function.update_self ..
      rw [htobject]
      cases step <;> rfl

/-- The memory after the instance of a context is destroyed. -/
def State.destroyed (s : State) (ctx : Context) (i : InstanceId) : State :=
  let s := s.setObject i { s.objects i with handlerInstance := none }
  (s.setInstances ctx.aw ((s.instances ctx.aw).filter (· ≠ i))).setSlot ctx .qnil

theorem aggregateInstanceDestroy_run {s : State} (h : MemInv s) {ctx : Context} {i : InstanceId}
    (hslot : s.slot ctx = .inst i) :
    aggregateInstanceDestroy ctx s = (.ok (), s.destroyed ctx i) := by
  have hpinned := h.pinned ctx i hslot
  rw [aggregateInstanceDestroy]
  rw [RubyM.get_bind, hslot]
  simp [hpinned, State.destroyed]

theorem destroyed_slot_eq_inst_iff (s : State) (ctx ctx' : Context) (i j : InstanceId) :
    (s.destroyed ctx i).slot ctx' = .inst j ↔ ctx' ≠ ctx ∧ s.slot ctx' = .inst j := by
  change Function.update s.slot ctx .qnil ctx' = _ ↔ _
  obtain rfl | hctx := eq_or_ne ctx' ctx
  · simp
  · simp [hctx]

theorem MemInv.destroyed {s : State} (h : MemInv s) {ctx : Context} {i : InstanceId}
    (hslot : s.slot ctx = .inst i) : MemInv (s.destroyed ctx i) := by
  have hne (ctx' : Context) (j : InstanceId) (hctx : ctx' ≠ ctx) (hj : s.slot ctx' = .inst j) :
      j ≠ i := by
    rintro rfl
    exact hctx (h.unshared ctx' ctx j hj hslot)
  have hmem (aw : WrapperId) (j : InstanceId) (hji : j ≠ i) :
      j ∈ (s.destroyed ctx i).instances aw ↔ j ∈ s.instances aw := by
    change j ∈ Function.update s.instances ctx.aw _ aw ↔ _
    obtain rfl | haw := eq_or_ne aw ctx.aw
    · simp [hji, State.setObject]
    · simp [haw]
  constructor
  · intro ctx' j hj
    obtain ⟨hctx, hj⟩ := (destroyed_slot_eq_inst_iff s ctx ctx' i j).mp hj
    exact (hmem _ _ (hne ctx' j hctx hj)).mpr (h.pinned ctx' j hj)
  · intro aw j hj
    have hsub : j ∈ s.instances aw := by
      obtain rfl | hji := eq_or_ne j i
      · change j ∈ Function.update s.instances ctx.aw _ aw at hj
        obtain rfl | haw := eq_or_ne aw ctx.aw
        · simp at hj
        · simpa [haw] using hj
      · exact (hmem aw j hji).mp hj
    exact h.numbered aw j hsub
  · intro ctx₁ ctx₂ j h₁ h₂
    obtain ⟨-, h₁⟩ := (destroyed_slot_eq_inst_iff s ctx ctx₁ i j).mp h₁
    obtain ⟨-, h₂⟩ := (destroyed_slot_eq_inst_iff s ctx ctx₂ i j).mp h₂
    exact h.unshared ctx₁ ctx₂ j h₁ h₂
  · intro ctx' j hj hstatus
    obtain ⟨hctx, hj⟩ := (destroyed_slot_eq_inst_iff s ctx ctx' i j).mp hj
    have hobject : (s.destroyed ctx i).objects j = s.objects j :=
      Function.update_of_ne (hne ctx' j hctx hj) ..
    rw [hobject] at hstatus ⊢
    exact h.handler ctx' j hj hstatus

/-- `finalize` returns, but no value that can be posted. -/
def unsupported (finalize : Outcome Value) : Prop :=
  ∃ result, finalize = .ok result ∧ result.isResult = false

/-- `finalize` is called in a group that serves its handler, and what it returns
cannot be posted. -/
def Group.misfinalizes (g : Group) (e : GroupEvent) : Prop :=
  match g.start e, e with
  | serving _, .final _ finalize => unsupported finalize
  | _, _ => False

/-- The records of one more call and of its result. -/
def State.recorded (s : State) (ctx : Context) (calls : List RubyCall)
    (posted : List FuncResult) : State :=
  { s with calls := s.calls ++ calls.map (ctx, ·), posted := s.posted ++ posted.map (ctx, ·) }

/-- `finalize` is called and its result posted, unless its conversion raises. -/
theorem finalizeAndPost_run {s : State} (h : MemInv s) {ctx : Context} {i : InstanceId}
    (hslot : s.slot ctx = .inst i) (long : SizeofLong) (new : Outcome HandlerId)
    (finalize : Outcome Value) :
    ∃ o, finalizeAndPost long ctx (s.objects i) finalize s =
        (o, s.recorded ctx ((s.group ctx).serve (.final new finalize))
          ((s.group ctx).answer long (.final new finalize))) ∧
      (o.Returns ↔ ¬ ((∃ handler, s.group ctx = .serving handler) ∧ unsupported finalize)) := by
  rcases h.object_cases hslot with ⟨hstatus, hgroup⟩ | ⟨handler, hobject, hgroup⟩
  · refine ⟨.ok (), ?_, by simp [hgroup]⟩
    simp [finalizeAndPost, hstatus, hgroup, Group.serve, Group.answer, State.recorded, State.post]
  · rw [hobject, hgroup]
    cases finalize with
    | raise e =>
        refine ⟨.ok (), ?_, by simp [unsupported]⟩
        simp [finalizeAndPost, Outcome.rbProtect, Group.serve, Group.answer, State.recorded,
          State.post, State.call]
    | jump tag =>
        refine ⟨.ok (), ?_, by simp [unsupported]⟩
        simp [finalizeAndPost, Outcome.rbProtect, Group.serve, Group.answer, State.recorded,
          State.post, State.call]
    | ok result =>
        have hreturns := setSqlite3FuncResult_returns_iff long result
        cases hresult : setSqlite3FuncResult long result with
        | ok call =>
            have hresult' : result.isResult = true := hreturns.mp (hresult ▸ Outcome.returns_ok call)
            refine ⟨.ok (), ?_, by simp [unsupported, hresult']⟩
            simp [finalizeAndPost, Group.serve, Group.answer, State.recorded, State.post,
              State.call, hresult]
        | raise e =>
            have hresult' : result.isResult = false := by
              simpa [hresult] using hreturns
            refine ⟨.raise e, ?_, by simp [unsupported, hresult']⟩
            simp [finalizeAndPost, Group.serve, Group.answer, State.recorded, State.call, hresult]
        | jump tag =>
            have hresult' : result.isResult = false := by
              simpa [hresult] using hreturns
            refine ⟨.jump tag, ?_, by simp [unsupported, hresult']⟩
            simp [finalizeAndPost, Group.serve, Group.answer, State.recorded, State.call, hresult]

theorem MemInv.recorded {s : State} (h : MemInv s) (ctx : Context) (calls : List RubyCall)
    (posted : List FuncResult) : MemInv (s.recorded ctx calls posted) :=
  h.of_memory rfl rfl rfl rfl

/-- Where `xFinal` leaves the slot and the instances: without the instance when
it returns, as they were when it is unwound. -/
structure Finalized (ctx : Context) (i : InstanceId) (s t : State) (back : Prop) : Prop where
  slot : s.slot ctx = .inst i
  returned : back → t.slot = Function.update s.slot ctx .qnil ∧
    t.instances = Function.update s.instances ctx.aw ((s.instances ctx.aw).filter (· ≠ i))
  unwound : ¬ back → t.slot = s.slot ∧ t.instances = s.instances

/-- `xFinal` serves its group. It comes back unless the result of `finalize`
cannot be posted. -/
theorem aggregatorFinal_run {s : State} (h : MemInv s) {ctx : Context}
    (hlive : (s.slot ctx).isLive = true) (long : SizeofLong) (new : Outcome HandlerId)
    (finalize : Outcome Value) :
    ∃ o t i, aggregatorFinal long ctx new finalize s = (o, t) ∧
      Serves long ctx (.final new finalize) s t ∧
      (o.Returns ↔ ¬ (s.group ctx).misfinalizes (.final new finalize)) ∧
      Finalized ctx i (s.prepared ctx new) t o.Returns := by
  obtain ⟨i, hslot, hrun⟩ := aggregateInstance_run hlive new
  have hprepared := h.prepared ctx new
  have hstart : (s.prepared ctx new).group ctx = (s.group ctx).start (.final new finalize) :=
    prepared_group hlive (.final new finalize)
  obtain ⟨o, hfinalize, hreturns⟩ := finalizeAndPost_run hprepared hslot long new finalize
  let p := (s.prepared ctx new).recorded ctx
    (((s.prepared ctx new).group ctx).serve (.final new finalize))
    (((s.prepared ctx new).group ctx).answer long (.final new finalize))
  have hp : MemInv p := hprepared.recorded ctx _ _
  have hmisfinalizes : (s.group ctx).misfinalizes (.final new finalize) ↔
      (∃ handler, (s.prepared ctx new).group ctx = .serving handler) ∧
        unsupported finalize := by
    rw [hstart]
    cases hgroup : (s.group ctx).start (.final new finalize) <;> simp [Group.misfinalizes, hgroup]
  rw [← hmisfinalizes] at hreturns
  rw [aggregatorFinal, RubyM.bind_run_ok i _ hrun, RubyM.get_bind]
  have hunwound {o : Outcome Unit} (ho : ¬ o.Returns) :
      Serves long ctx (.final new finalize) s p ∧
        Finalized ctx i (s.prepared ctx new) p o.Returns := by
    refine ⟨.of_prepared h hlive hp rfl rfl ?_ (fun _ _ => rfl), hslot,
      fun h => absurd h ho, fun _ => ⟨rfl, rfl⟩⟩
    intro ctx' _
    exact group_congr rfl fun _ _ => rfl
  cases o with
  | ok u =>
      refine ⟨.ok (), p.destroyed ctx i, i, ?_, ?_, hreturns, hslot, fun _ => ⟨rfl, rfl⟩, ?_⟩
      · rw [RubyM.bind_run_ok u _ hfinalize]
        exact aggregateInstanceDestroy_run hp hslot
      · refine .of_prepared h hlive (hp.destroyed hslot) rfl rfl ?_ ?_
        · intro ctx' hne
          have hslot' : (p.destroyed ctx i).slot ctx' = p.slot ctx' := Function.update_of_ne hne ..
          exact (hp.group_of_ne hslot hne hslot' rfl).trans (group_congr rfl fun _ _ => rfl)
        · intro ctx' hne
          exact Function.update_of_ne hne ..
      · exact fun h => absurd (Outcome.returns_ok ()) h
  | raise e =>
      obtain ⟨hserves, hfinalized⟩ := hunwound (Outcome.not_returns_raise e)
      exact ⟨.raise e, p, i, RubyM.bind_run_raise _ hfinalize, hserves, hreturns, hfinalized⟩
  | jump tag =>
      obtain ⟨hserves, hfinalized⟩ := hunwound (Outcome.not_returns_jump tag)
      refine ⟨.jump tag, p, i, ?_, hserves, hreturns, hfinalized⟩
      change RubyM.bind _ _ _ = _
      rw [RubyM.bind, hfinalize]

end Sqlite3Ruby.Aggregator
