import Sqlite3Ruby.Discard
import Sqlite3Ruby.Lib.StepSystem
import Sqlite3Ruby.Ruby.Exception

/-!
# A `Database` that is opened again

`open_v2` and `open16` ask only that the object is closed. Its owner and its flags stay
in the context struct from one connection to the next.

## Implementation notes

After a fork the child is followed. A handle that SQLite could not open a file with is
closed at once, and is not among the connections. `discard` of a closed object hands
NULL to `sqlite3_db_release_memory`, which reads the handle: the process dies, and there is
no such step.
-/

namespace Sqlite3Ruby.Reopening

open Discard (databaseDiscarded or_and_ne_zero)

abbrev Pid := Nat

/-- `SQLITE3_RB_DATABASE_READONLY`. -/
def databaseReadonly : Nat := 1

/-- The context struct, with the number of the connection in `db`. -/
structure Context where
  db : Option Nat
  owner : Pid
  flags : Nat

/-- The flags that a connection was opened with, and the process that opened it. -/
structure Opened where
  flags : Int
  opener : Pid

/-- A process with one object. Besides the struct, it is known which process allocated it,
which connections it had and how many were discarded; a statement is known by the connection
that it was prepared on. -/
structure World where
  pid : Pid
  allocator : Pid
  ctx : Context
  connections : List Opened
  discards : Nat
  statements : List Nat

namespace World

/-- `allocate`. -/
def start (pid : Pid) : World := ⟨pid, pid, ⟨none, pid, 0⟩, [], 0, []⟩

def connect (w : World) (flags : Int) : World :=
  { w with
    ctx := { w.ctx with db := some w.connections.length }
    connections := w.connections ++ [⟨flags, w.pid⟩] }

def setReadonly (w : World) : World :=
  { w with ctx := { w.ctx with flags := w.ctx.flags ||| databaseReadonly } }

def closed (w : World) : World := { w with ctx := { w.ctx with db := none } }

/-- `discard_db`. -/
def discardDb (w : World) : World :=
  { w with
    ctx := { w.ctx with db := none, flags := w.ctx.flags ||| databaseDiscarded }
    discards := w.discards + 1 }

end World

abbrev ReopenM := RubyM World

/-! ## The methods -/

/-- How a call of SQLite fails, if it does. -/
abbrev Failure := Option (ErrorStatus × String)

def requireClosedDb : ReopenM Unit := do
  let w ← RubyM.get
  if w.ctx.db.isSome then
    RubyM.lift (.raise ⟨.SQLite3Exception, "cannot open a database that is already open"⟩)
  else pure ()

/-- A call that opens a file, with the check of its status. -/
def sqlite3Open (flags : Int) : Failure → ReopenM Unit
  | none => RubyM.modify fun w => w.connect flags
  | some (status, errmsg) => RubyM.lift (check status.1 errmsg)

/-- `open_v2`. The conversion of the arguments gives the flags. -/
def openV2 (flags : Outcome Int) (failure : Failure) : ReopenM Unit := do
  requireClosedDb
  let flags ← RubyM.lift flags
  sqlite3Open flags failure
  if flags % 2 = 1 then RubyM.modify World.setReadonly else pure ()

/-- `open16`, which has `READWRITE | CREATE` for flags. -/
def open16 (file : Outcome Unit) (failure : Failure) : ReopenM Unit := do
  requireClosedDb
  RubyM.lift file
  sqlite3Open 6 failure

/-- `close_or_discard_db`. -/
def closeOrDiscardDb : ReopenM Unit := do
  let w ← RubyM.get
  if w.ctx.db.isSome then
    if w.ctx.flags &&& databaseReadonly ≠ 0 ∨ w.ctx.owner = w.pid then RubyM.modify World.closed
    else RubyM.modify World.discardDb
  else pure ()

/-- `Statement.new`. -/
def prepare (failure : Failure) : ReopenM Unit := do
  let w ← RubyM.get
  match w.ctx.db with
  | none => RubyM.lift (.raise ⟨.ArgumentError, "prepare called on a closed database"⟩)
  | some id =>
    match failure with
    | none => RubyM.modify fun w => { w with statements := w.statements ++ [id] }
    | some (status, errmsg) => RubyM.lift (check status.1 errmsg)

/-- `REQUIRE_LIVE_DB`. -/
def requireLiveDb (ctx : Context) : Outcome Unit :=
  if ctx.flags &&& databaseDiscarded ≠ 0 then
    .raise ⟨.SQLite3Exception, "cannot use a statement associated with a discarded database"⟩
  else .ok ()

/-! ## Runs -/

inductive Action
  | openV2 (flags : Outcome Int) (failure : Failure)
  | open16 (file : Outcome Unit) (failure : Failure)
  | close
  | discard
  | prepare (failure : Failure)
  | fork (child : Pid)

def Action.run : Action → ReopenM Unit
  | openV2 flags failure => Reopening.openV2 flags failure
  | open16 file failure => Reopening.open16 file failure
  | close => closeOrDiscardDb
  | discard => RubyM.modify World.discardDb
  | prepare failure => Reopening.prepare failure
  | fork child => RubyM.modify fun w => { w with pid := child }

/-- SQLite has the handle that it reads. -/
def Action.hasHandle (w : World) : Action → Bool
  | discard => w.ctx.db.isSome
  | openV2 _ _ | open16 _ _ | close | prepare _ | fork _ => true

/-- The process goes on after the call. -/
def step (w : World) (a : Action) : Option World :=
  if a.hasHandle w then some (a.run w).2 else none

/-- The struct describes this connection, and its statements run. -/
structure DescribesConnection (w : World) (id : Nat) (o : Opened) : Prop where
  readonly : w.ctx.flags &&& databaseReadonly ≠ 0 ↔ o.flags % 2 = 1
  discarded : w.ctx.flags &&& databaseDiscarded = 0
  owner : w.ctx.owner = o.opener
  live : ∀ s ∈ w.statements, s = id → (requireLiveDb w.ctx).Returns

/-- The struct of an open object describes the current connection. -/
def Describes (w : World) : Prop :=
  ∀ id, w.ctx.db = some id → ∃ o, w.connections[id]? = some o ∧ DescribesConnection w id o

/-- The flags that a call opens the object with, if it does. -/
def Action.opens (w : World) : Action → Option Int
  | openV2 (.ok flags) none => if w.ctx.db = none then some flags else none
  | open16 (.ok ()) none => if w.ctx.db = none then some 6 else none
  | _ => none

/-- The object is opened by the process that allocated it, never after it was discarded, and
for reading only if it ever was before. -/
def Meets (w : World) (a : Action) : Prop :=
  ∀ flags, a.opens w = some flags → w.discards = 0 ∧ w.pid = w.allocator ∧
    ((∃ o ∈ w.connections, o.flags % 2 = 1) → flags % 2 = 1)

/-! ## The bits -/

theorem readonly_ne_zero (flags : Nat) : (flags ||| databaseReadonly) &&& databaseReadonly ≠ 0 :=
  or_and_ne_zero flags (by decide)

theorem readonly_discarded (flags : Nat) :
    (flags ||| databaseReadonly) &&& databaseDiscarded = flags &&& databaseDiscarded := by
  rw [Nat.and_or_distrib_right]
  exact Nat.or_zero _

theorem discarded_readonly (flags : Nat) :
    (flags ||| databaseDiscarded) &&& databaseReadonly = flags &&& databaseReadonly := by
  rw [Nat.and_or_distrib_right]
  exact Nat.or_zero _

theorem requireLiveDb_returns {ctx : Context} (h : ctx.flags &&& databaseDiscarded = 0) :
    (requireLiveDb ctx).Returns := by
  rw [requireLiveDb, if_neg (not_not_intro h)]
  exact Outcome.returns_ok ()

/-! ## What one call does -/

variable {w w' : World} {a : Action}

/-- The object after it is opened. -/
def World.opened (w : World) (flags : Int) : World :=
  if flags % 2 = 1 then (w.connect flags).setReadonly else w.connect flags

/-- A call that does not open the object. -/
structure Quiet (w w' : World) : Prop where
  allocator : w'.allocator = w.allocator
  owner : w'.ctx.owner = w.ctx.owner
  connections : w'.connections = w.connections
  db : w'.ctx.db = w.ctx.db ∨ w'.ctx.db = none
  flags : w'.ctx.flags = w.ctx.flags ∧ w'.discards = w.discards ∨
    w'.ctx.flags = w.ctx.flags ||| databaseDiscarded ∧ w'.discards = w.discards + 1 ∧
      w'.ctx.db = none

theorem Quiet.refl (w : World) : Quiet w w := ⟨rfl, rfl, rfl, Or.inl rfl, Or.inl ⟨rfl, rfl⟩⟩

theorem quiet_closed (w : World) : Quiet w w.closed :=
  ⟨rfl, rfl, rfl, Or.inr rfl, Or.inl ⟨rfl, rfl⟩⟩

theorem quiet_discardDb (w : World) : Quiet w w.discardDb :=
  ⟨rfl, rfl, rfl, Or.inr rfl, Or.inr ⟨rfl, rfl, rfl⟩⟩

theorem requireClosedDb_closed (h : w.ctx.db = none) : requireClosedDb w = (.ok (), w) := by
  rw [requireClosedDb, RubyM.get_bind, if_neg (by simp [h])]
  rfl

theorem requireClosedDb_open (h : w.ctx.db ≠ none) :
    requireClosedDb w =
      (.raise ⟨.SQLite3Exception, "cannot open a database that is already open"⟩, w) := by
  rw [requireClosedDb, RubyM.get_bind, if_pos (Option.isSome_iff_ne_none.mpr h)]
  rfl

theorem sqlite3Open_failed (flags : Int) (status : ErrorStatus) (errmsg : String) (w : World) :
    ∃ e, sqlite3Open flags (some (status, errmsg)) w = (.raise e, w) := by
  obtain ⟨e, hcheck, -⟩ := check_errorStatus status errmsg
  exact ⟨e, by rw [sqlite3Open, hcheck]; rfl⟩

theorem openV2_closed (h : w.ctx.db = none) (flags : Int) :
    (openV2 (.ok flags) none w).2 = w.opened flags := by
  rw [openV2, RubyM.bind_run_ok () _ (requireClosedDb_closed h), RubyM.lift_ok_bind, World.opened]
  have hconnect : sqlite3Open flags none w = (.ok (), w.connect flags) := rfl
  rw [RubyM.bind_run_ok () _ hconnect]
  split_ifs
  · rfl
  · rfl

theorem open16_closed (h : w.ctx.db = none) : (open16 (.ok ()) none w).2 = w.opened 6 := by
  rw [open16, RubyM.bind_run_ok () _ (requireClosedDb_closed h), RubyM.lift_ok_bind]
  rfl

theorem run_opens {flags : Int} (h : a.opens w = some flags) : (a.run w).2 = w.opened flags := by
  unfold Action.opens at h
  split at h
  · obtain ⟨hclosed, hflags⟩ := Option.ite_none_right_eq_some.mp h
    obtain rfl := Option.some.inj hflags
    exact openV2_closed hclosed _
  · obtain ⟨hclosed, hflags⟩ := Option.ite_none_right_eq_some.mp h
    obtain rfl := Option.some.inj hflags
    exact open16_closed hclosed
  · cases h

/-- Nothing happens to an object that is open. -/
theorem open_quiet {rest : ReopenM Unit} (h : w.ctx.db = none → (rest w).2 = w) :
    ((requireClosedDb >>= fun _ => rest) w).2 = w := by
  by_cases hclosed : w.ctx.db = none
  · rw [RubyM.bind_run_ok () _ (requireClosedDb_closed hclosed)]
    exact h hclosed
  · rw [RubyM.bind_run_raise _ (requireClosedDb_open hclosed)]

theorem openV2_quiet {converted : Outcome Int} {failure : Failure}
    (h : (Action.openV2 converted failure).opens w = none) : (openV2 converted failure w).2 = w := by
  apply open_quiet
  intro hclosed
  cases converted with
  | ok flags =>
    rw [RubyM.lift_ok_bind]
    cases failure with
    | none => simp [Action.opens, hclosed] at h
    | some failure =>
      obtain ⟨e, hfails⟩ := sqlite3Open_failed flags failure.1 failure.2 w
      rw [RubyM.bind_run_raise _ hfails]
  | raise e => rw [RubyM.lift_raise_bind]
  | jump tag => rw [RubyM.lift_jump_bind]

theorem open16_quiet {file : Outcome Unit} {failure : Failure}
    (h : (Action.open16 file failure).opens w = none) : (open16 file failure w).2 = w := by
  apply open_quiet
  intro hclosed
  cases file with
  | ok u =>
    rw [RubyM.lift_ok_bind]
    cases failure with
    | none => simp [Action.opens, hclosed] at h
    | some failure =>
      obtain ⟨e, hfails⟩ := sqlite3Open_failed 6 failure.1 failure.2 w
      rw [hfails]
  | raise e => rw [RubyM.lift_raise_bind]
  | jump tag => rw [RubyM.lift_jump_bind]

theorem closeOrDiscardDb_quiet (w : World) : Quiet w (closeOrDiscardDb w).2 := by
  rw [closeOrDiscardDb, RubyM.get_bind]
  split_ifs
  · exact quiet_closed w
  · exact quiet_discardDb w
  · exact Quiet.refl w

theorem prepare_quiet (failure : Failure) (w : World) : Quiet w (prepare failure w).2 := by
  rw [prepare, RubyM.get_bind]
  cases w.ctx.db with
  | none => exact Quiet.refl w
  | some id =>
    cases failure with
    | none => exact ⟨rfl, rfl, rfl, Or.inl rfl, Or.inl ⟨rfl, rfl⟩⟩
    | some failure => exact Quiet.refl w

theorem run_quiet (h : a.opens w = none) : Quiet w (a.run w).2 := by
  cases a with
  | openV2 converted failure =>
    change Quiet w (openV2 converted failure w).2
    rw [openV2_quiet h]
    exact Quiet.refl w
  | open16 file failure =>
    change Quiet w (open16 file failure w).2
    rw [open16_quiet h]
    exact Quiet.refl w
  | close => exact closeOrDiscardDb_quiet w
  | discard => exact quiet_discardDb w
  | prepare failure => exact prepare_quiet failure w
  | fork child => exact ⟨rfl, rfl, rfl, Or.inl rfl, Or.inl ⟨rfl, rfl⟩⟩

/-! ## What the struct remembers -/

/-- The owner and the bits are those of all connections together. -/
structure Inv (w : World) : Prop where
  owner : w.ctx.owner = w.allocator
  readonly : w.ctx.flags &&& databaseReadonly ≠ 0 ↔ ∃ o ∈ w.connections, o.flags % 2 = 1
  discarded : w.ctx.flags &&& databaseDiscarded = 0 ↔ w.discards = 0

theorem inv_start (pid : Pid) : Inv (World.start pid) := by
  refine ⟨rfl, ?_, iff_of_true (Nat.zero_and _) rfl⟩
  apply iff_of_false
  · exact not_not_intro (Nat.zero_and _)
  · rintro ⟨o, ho, -⟩
    cases ho

theorem Inv.quiet (h : Inv w) (hquiet : Quiet w w') : Inv w' := by
  refine ⟨?_, ?_, ?_⟩
  · rw [hquiet.owner, hquiet.allocator, h.owner]
  · rw [hquiet.connections, ← h.readonly]
    obtain ⟨hflags, -⟩ | ⟨hflags, -⟩ := hquiet.flags
    · rw [hflags]
    · rw [hflags, discarded_readonly]
  · obtain ⟨hflags, hdiscards⟩ | ⟨hflags, hdiscards, -⟩ := hquiet.flags
    · rw [hflags, hdiscards, h.discarded]
    · rw [hflags, hdiscards]
      exact iff_of_false (or_and_ne_zero _ (by decide)) (Nat.succ_ne_zero _)

theorem opened_ctx (w : World) (flags : Int) :
    (w.opened flags).ctx.db = some w.connections.length ∧
      (w.opened flags).ctx.owner = w.ctx.owner ∧
      (w.opened flags).ctx.flags &&& databaseDiscarded = w.ctx.flags &&& databaseDiscarded ∧
      ((w.opened flags).ctx.flags &&& databaseReadonly ≠ 0 ↔
        w.ctx.flags &&& databaseReadonly ≠ 0 ∨ flags % 2 = 1) := by
  rw [World.opened]
  by_cases hodd : flags % 2 = 1
  · rw [if_pos hodd]
    refine ⟨rfl, rfl, readonly_discarded _, iff_of_true (readonly_ne_zero _) (Or.inr hodd)⟩
  · rw [if_neg hodd]
    exact ⟨rfl, rfl, rfl, (or_iff_left hodd).symm⟩

theorem opened_connections (w : World) (flags : Int) :
    (w.opened flags).connections = w.connections ++ [⟨flags, w.pid⟩] ∧
      (w.opened flags).allocator = w.allocator ∧ (w.opened flags).discards = w.discards := by
  rw [World.opened]
  split_ifs
  · exact ⟨rfl, rfl, rfl⟩
  · exact ⟨rfl, rfl, rfl⟩

theorem Inv.opened (h : Inv w) (flags : Int) : Inv (w.opened flags) := by
  obtain ⟨-, howner, hdiscarded, hreadonly⟩ := opened_ctx w flags
  obtain ⟨hconnections, hallocator, hdiscards⟩ := opened_connections w flags
  refine ⟨?_, ?_, ?_⟩
  · rw [howner, hallocator, h.owner]
  · rw [hreadonly, h.readonly, hconnections]
    simp [or_and_right, exists_or]
  · rw [hdiscarded, hdiscards, h.discarded]

/-! ## Over a run -/

/-- What does not open the object leaves what is said of it true. -/
theorem Describes.quiet (h : Describes w) (hquiet : Quiet w w') : Describes w' := by
  intro id hid
  have hdb : w.ctx.db = some id := by
    obtain hsame | hnone := hquiet.db
    · rw [← hsame, hid]
    · rw [hnone] at hid
      cases hid
  obtain ⟨o, ho, hdescribes⟩ := h id hdb
  have hflags : w'.ctx.flags = w.ctx.flags := by
    obtain ⟨hflags, -⟩ | ⟨-, -, hnone⟩ := hquiet.flags
    · exact hflags
    · rw [hnone] at hid
      cases hid
  have hclear : w'.ctx.flags &&& databaseDiscarded = 0 := by rw [hflags, hdescribes.discarded]
  refine ⟨o, by rw [hquiet.connections, ho], ?_, hclear, ?_, fun _ _ _ => requireLiveDb_returns hclear⟩
  · rw [hflags, hdescribes.readonly]
  · rw [hquiet.owner, hdescribes.owner]

/-- An object that is opened is described when it was opened as the condition says. -/
theorem describes_opened_iff (h : Inv w) (flags : Int) :
    Describes (w.opened flags) ↔ w.discards = 0 ∧ w.pid = w.allocator ∧
      ((∃ o ∈ w.connections, o.flags % 2 = 1) → flags % 2 = 1) := by
  obtain ⟨hdb, howner, hdiscarded, hreadonly⟩ := opened_ctx w flags
  have hcurrent : (w.opened flags).connections[w.connections.length]? = some ⟨flags, w.pid⟩ := by
    rw [(opened_connections w flags).1]
    exact List.getElem?_concat_length
  rw [h.readonly] at hreadonly
  constructor
  · intro hdescribes
    obtain ⟨o, ho, hconnection⟩ := hdescribes _ hdb
    obtain rfl := Option.some.inj (hcurrent.symm.trans ho)
    refine ⟨?_, ?_, fun hbefore => ?_⟩
    · rw [← h.discarded, ← hdiscarded, hconnection.discarded]
    · rw [← h.owner, ← howner, hconnection.owner]
    · exact hconnection.readonly.mp (hreadonly.mpr (Or.inl hbefore))
  · rintro ⟨hdiscards, hpid, hbefore⟩ id hid
    obtain rfl := Option.some.inj (hdb.symm.trans hid)
    have hclear : (w.opened flags).ctx.flags &&& databaseDiscarded = 0 := by
      rw [hdiscarded, h.discarded, hdiscards]
    refine ⟨_, hcurrent, ?_, hclear, ?_, fun _ _ _ => requireLiveDb_returns hclear⟩
    · rw [hreadonly]
      exact or_iff_right_of_imp hbefore
    · rw [howner, h.owner, hpid]

theorem step_serves (h : Inv w) (hstep : step w a = some w') :
    Inv w' ∧ (Describes w → (Describes w' ↔ Meets w a)) := by
  obtain ⟨-, hrun⟩ := Option.ite_none_right_eq_some.mp hstep
  obtain rfl := Option.some.inj hrun
  cases hopens : a.opens w with
  | none =>
    have hquiet := run_quiet hopens
    refine ⟨h.quiet hquiet, fun hdescribes => iff_of_true (hdescribes.quiet hquiet) ?_⟩
    intro flags hflags
    cases hopens.symm.trans hflags
  | some flags =>
    rw [run_opens hopens]
    refine ⟨h.opened flags, fun _ => ?_⟩
    rw [describes_opened_iff h, Meets, hopens]
    simp

/-- In any run of calls on one object, also across forks: the struct describes the current
connection in every state, exactly when the object is always opened as the condition says. -/
theorem describes_iff (pid : Pid) (as : List Action) :
    StepSystem.AlwaysState step Describes (World.start pid) as ↔
      StepSystem.AlwaysStep step Meets (World.start pid) as := by
  have hstart : Describes (World.start pid) := fun id hid => nomatch hid
  apply StepSystem.alwaysState_iff_alwaysStep _ _ (inv_start pid) hstart
  · intro w a w' h hstep
    exact (step_serves h hstep).1
  · intro w a w' h hdescribes hstep
    exact (step_serves h hstep).2 hdescribes

/-- Opened for reading only, closed, and opened for writing. -/
def reopenedWritable : List Action :=
  [.openV2 (.ok 1) none, .close, .openV2 (.ok 6) none]

/-- The bit of the first connection is still set. -/
theorem reopened_writable_readonly :
    ¬ ∀ (pid : Pid) (as : List Action),
      StepSystem.AlwaysState step Describes (World.start pid) as := by
  intro hclaim
  have hlast := (hclaim 1 reopenedWritable).last rfl
  obtain ⟨o, ho, hdescribes⟩ := hlast 1 rfl
  obtain rfl := Option.some.inj ho
  exact absurd (hdescribes.readonly.mp (by decide)) (by decide)

end Sqlite3Ruby.Reopening
