import Sqlite3Ruby.Fork.Safety

/-!
# The process that opened a connection

Each process of a tree opens databases and closes what it has opened or was forked with: by
`close`, by the collector and by the hook that runs in it after the fork.

## Implementation notes

The hook is run one call at a time. The collector can find a wrapper between any two of them;
the weak references to it are dead from then on, and `deallocate` is called for it later.
`inherited` is the memory that the process was forked with.
-/

namespace Sqlite3Ruby.Fork.Ownership

/-- Where `ForkSafety.discard` has come to. -/
inductive Hook
  | each (databases : List DbId) (warned : Bool)
  | isClosed (d : DbId) (rest : List DbId) (warned : Bool)
  | isReadonly (d : DbId) (rest : List DbId) (warned : Bool)
  | warn (d : DbId) (rest : List DbId)
  | close (d : DbId) (rest : List DbId)
  | cleared

/-- A process, with the wrappers that the collector has found and, for each connection, what
the process has asked of SQLite. -/
structure Process where
  memory : Memory
  suppress : Bool
  dead : List DbId
  hook : Option Hook
  inherited : Memory
  calls : DbId → List SqliteCall

namespace Process

/-- An operation on one database. -/
def perform (p : Process) (d : DbId) (operation : MemoryM Unit) : Process :=
  let m := (operation { p.memory with calls := [] }).2
  { p with memory := m, calls := Function.update p.calls d (p.calls d ++ m.calls) }

def setDatabase (p : Process) (d : DbId) (x : Database) : Process :=
  { p with memory := p.memory.setDatabase d x }

/-- One call of `ForkSafety.discard`. Every call on a dead weak reference but
`weakref_alive?` raises, and is rescued. -/
def hookStep (p : Process) : Hook → Process
  | .each [] _ =>
      { p with memory := { p.memory with tracked := [] }, hook := some .cleared }
  | .each (d :: rest) warned =>
      { p with hook := some (if d ∈ p.dead then .each rest warned else .isClosed d rest warned) }
  | .isClosed d rest warned =>
      { p with
        hook := some (if d ∈ p.dead ∨ (p.memory.databases d).db = false then .each rest warned
          else .isReadonly d rest warned) }
  | .isReadonly d rest warned =>
      { p with
        hook := some (if d ∈ p.dead ∨ (p.memory.databases d).readonly = true then
            .each rest warned
          else if warned then .close d rest else .warn d rest) }
  | .warn d rest => { p with hook := some (.close d rest) }
  | .close d rest =>
      if d ∈ p.dead then { p with hook := some (.each rest true) }
      else { p.perform d (closeOrDiscardDb d) with hook := some (.each rest true) }
  | .cleared => { p with hook := none }

end Process

/-- A `Database` that is opened. -/
def openDatabase (d : DbId) (readonly : Bool) : MemoryM Unit :=
  RubyM.modify fun m =>
    (m.setDatabase d ⟨true, m.pid, readonly, false, .reachable⟩).setConnection d
      ⟨m.pid, !readonly, .opened, []⟩

/-- `ForkSafety.track`. -/
def track (d : DbId) : MemoryM Unit :=
  RubyM.modify fun m => { m with tracked := m.tracked ++ [d] }

theorem newDatabase_run (d : DbId) (readonly : Bool) (m : Memory) :
    newDatabase d readonly m = (do openDatabase d readonly; track d) m := rfl

/-- What happens in a process. `Database.new` opens, and tracks unless an extension raises. -/
inductive Event
  | openDatabase (d : DbId) (readonly : Bool)
  | openFails (d : DbId)
  | track (d : DbId)
  | suppressWarnings
  | close (d : DbId)
  | drop (d : DbId)
  | find (d : DbId)
  | deallocate (d : DbId)
  | hook

/-- While the hook runs, only the collector runs besides. -/
def Event.isEnabled (p : Process) : Event → Bool
  | openDatabase d _ | openFails d => p.hook.isNone && (p.memory.databases d).life = .free
  | track d | close d => p.hook.isNone && (p.memory.databases d).life = .reachable
  | suppressWarnings => p.hook.isNone
  | drop d => (p.memory.databases d).life = .reachable
  | find d => (p.memory.databases d).life = .dropped
  | deallocate d => (p.memory.databases d).life = .dropped && d ∈ p.dead
  | hook => p.hook.isSome

def Process.happen (p : Process) : Event → Process
  | .openDatabase d readonly => p.perform d (openDatabase d readonly)
  | .openFails d => p.setDatabase d ⟨false, p.memory.pid, false, false, .reachable⟩
  | .track d => p.perform d (track d)
  | .suppressWarnings => { p with suppress := true }
  | .close d => p.perform d (closeOrDiscardDb d)
  | .drop d => p.setDatabase d { p.memory.databases d with life := .dropped }
  | .find d => { p with dead := d :: p.dead }
  | .deallocate d => p.perform d (databaseDeallocate d)
  | .hook => p.hook.elim p p.hookStep

def Process.run (p : Process) (e : Event) : Option Process :=
  if e.isEnabled p then some (p.happen e) else none

/-- The child of a fork, in which the hook is to run. -/
def Process.forked (p : Process) (child : Pid) : Process where
  memory := { p.memory with pid := child }
  suppress := p.suppress
  dead := p.dead
  hook := some (.each p.memory.tracked p.suppress)
  inherited := p.memory
  calls _ := []

def Process.start (pid : Pid) : Process := ⟨.start pid, false, [], none, .start pid, fun _ => []⟩

/-- The processes there are. -/
abbrev Tree := Pid → Option Process

inductive Action
  | event (pid : Pid) (e : Event)
  | fork (pid child : Pid)

/-- The process that acts. -/
def Action.pid : Action → Pid
  | event pid _ => pid
  | fork pid _ => pid

def step (w : Tree) : Action → Option Tree
  | .event pid e => do
      let p ← w pid
      let p' ← p.run e
      some (Function.update w pid (some p'))
  | .fork pid child => do
      let p ← w pid
      if (w child).isSome || p.hook.isSome then none
      else some (Function.update w child (some (p.forked child)))

def Tree.start (pid : Pid) : Tree := Function.update (fun _ => none) pid (some (.start pid))

/-! ## What is to hold -/

/-- So many calls are left of the hook at most. -/
def Hook.remaining : Hook → Nat
  | each databases _ => 5 * databases.length + 1
  | isClosed _ rest _ => 5 * rest.length + 5
  | isReadonly _ rest _ => 5 * rest.length + 4
  | warn _ rest => 5 * rest.length + 3
  | close _ rest => 5 * rest.length + 2
  | cleared => 0

structure Process.Respects (p : Process) (pid : Pid) : Prop where
  /-- `sqlite3_close_v2` is called on a writable connection by the process that opened it. -/
  closed_by_owner : ∀ d c, .closeV2 c ∈ p.calls d → c.writable = true → c.opener = pid
  /-- In any other process it is discarded. -/
  foreign_discarded : ∀ d, (p.memory.connections d).isForeign pid = true →
    (p.inherited.databases d).db = true → (p.memory.databases d).db = false →
      (p.memory.databases d).discarded = true ∧
        p.calls d = [.releaseFiles (p.inherited.connections d)]
  /-- When the hook returns, what was open, writable and tracked has been closed once. -/
  hook_closes : p.hook = some .cleared → p.memory.tracked = [] ∧
    ∀ d ∈ p.inherited.tracked, d ∉ p.dead →
      ((p.memory.databases d).db = false ∨ (p.memory.databases d).readonly = true) ∧
        ((p.inherited.databases d).db = true → (p.inherited.databases d).readonly = false →
          p.calls d = [.releaseFiles (p.inherited.connections d)])
  /-- The hook leaves read-only connections open. -/
  readonly_open : ∀ d, p.hook.isSome = true → (p.inherited.databases d).db = true →
    (p.inherited.databases d).readonly = true → (p.memory.databases d).life ≠ .collected →
      (p.memory.databases d).db = true ∧ p.calls d = []
  /-- The hook returns, whatever has died. -/
  hook_returns : ∀ h, p.hook = some h → ∃ n ≤ h.remaining, ∃ p',
    StepSystem.exec Process.run p (List.replicate n .hook) = some p' ∧ p'.hook = some .cleared

/-- Every process respects the ownership of the connections. -/
def Respectful (w : Tree) : Prop := ∀ pid p, w pid = some p → p.Respects pid

/-! ## The course of a connection -/

/-- What is known of a database that is open, and of its connection. -/
structure WellOpened (x : Database) (c : Connection) : Prop where
  life : x.life ≠ .free
  opener : c.opener = x.owner
  writable : c.writable = !x.readonly

/-- What a process has done with a database: it has opened it itself, or was forked with it
and has left it as it was, closed or discarded it. -/
inductive Course (pid : Pid) (inherited : Database) (connection : Connection) :
    Database → Connection → List SqliteCall → Prop
  | own {x : Database} {c : Connection} {calls : List SqliteCall} (hfree : inherited.life = .free)
      (hopened : x.db = true → WellOpened x c ∧ x.owner = pid)
      (hcalls : ∀ call ∈ calls, ∃ c', call = .closeV2 c' ∧ c'.opener = pid) :
      Course pid inherited connection x c calls
  | kept (hlife : inherited.life ≠ .free) (life : Life) :
      Course pid inherited connection { inherited with life } connection []
  | closed (hopened : inherited.db = true) (hreadonly : inherited.readonly = true) (life : Life) :
      Course pid inherited connection { inherited with db := false, life } connection.closeV2
        [.closeV2 connection]
  | discarded (hopened : inherited.db = true) (hreadonly : inherited.readonly = false)
      (life : Life) :
      Course pid inherited connection { inherited with db := false, discarded := true, life }
        connection [.releaseFiles connection]

def Process.Course (p : Process) (d : DbId) : Prop :=
  Ownership.Course p.memory.pid (p.inherited.databases d) (p.inherited.connections d)
    (p.memory.databases d) (p.memory.connections d) (p.calls d)

namespace Course

variable {pid : Pid} {inherited x : Database} {connection c : Connection}
  {calls : List SqliteCall}

/-- The flag of an inherited database stays as it was. -/
theorem readonly (h : Course pid inherited connection x c calls) (hlife : inherited.life ≠ .free) :
    x.readonly = inherited.readonly := by
  cases h with
  | own hfree _ _ => exact absurd hfree hlife
  | kept _ life => rfl
  | closed _ _ life => rfl
  | discarded _ _ life => rfl

theorem wellOpened (h : Course pid inherited connection x c calls)
    (hinherited : inherited.db = true → WellOpened inherited connection) (hlife : x.life ≠ .free)
    (hx : x.db = true) : WellOpened x c := by
  cases h with
  | own _ hopened _ => exact (hopened hx).1
  | kept _ life => exact ⟨hlife, (hinherited hx).opener, (hinherited hx).writable⟩
  | closed _ _ life => cases hx
  | discarded _ _ life => cases hx

/-- `sqlite3_close_v2` is left to the process that opened a writable connection. -/
theorem opener_of_closeV2 (h : Course pid inherited connection x c calls)
    (hinherited : inherited.db = true → WellOpened inherited connection) {c' : Connection}
    (hcall : .closeV2 c' ∈ calls) (hwritable : c'.writable = true) : c'.opener = pid := by
  cases h with
  | own _ _ hcalls =>
      obtain ⟨c'', heq, hopener⟩ := hcalls _ hcall
      rwa [SqliteCall.closeV2.inj heq]
  | kept _ life => cases hcall
  | closed hopened hreadonly life =>
      obtain rfl := SqliteCall.closeV2.inj (List.mem_singleton.mp hcall)
      rw [(hinherited hopened).writable, hreadonly] at hwritable
      cases hwritable
  | discarded _ _ life => cases List.mem_singleton.mp hcall

/-- An inherited connection that is no longer open, and writable, has been discarded. -/
theorem discarded_of_writable (h : Course pid inherited connection x c calls)
    (hinherited : inherited.db = true → WellOpened inherited connection)
    (hopened : inherited.db = true) (hx : x.db = false) (hreadonly : inherited.readonly = false) :
    x.discarded = true ∧ calls = [.releaseFiles connection] := by
  cases h with
  | own hfree _ _ => exact absurd hfree (hinherited hopened).life
  | kept _ life => exact absurd (hx.symm.trans hopened) Bool.false_ne_true
  | closed _ hreadonly' life => exact absurd (hreadonly.symm.trans hreadonly') Bool.false_ne_true
  | discarded _ _ life => exact ⟨rfl, rfl⟩

/-- Nothing is asked of SQLite for an inherited connection that is still open. -/
theorem calls_of_open (h : Course pid inherited connection x c calls)
    (hinherited : inherited.db = true → WellOpened inherited connection)
    (hopened : inherited.db = true) (hx : x.db = true) : calls = [] := by
  cases h with
  | own hfree _ _ => exact absurd hfree (hinherited hopened).life
  | kept _ life => rfl
  | closed _ _ life => cases hx
  | discarded _ _ life => cases hx

theorem connection_writable (h : Course pid inherited connection x c calls)
    (hlife : inherited.life ≠ .free) : c.writable = connection.writable := by
  cases h with
  | own hfree _ _ => exact absurd hfree hlife
  | kept _ life => rfl
  | closed _ _ life => rfl
  | discarded _ _ life => rfl

/-- Of its own connections a process closes all, and discards none. -/
theorem closes_own (h : Course pid inherited connection x c calls)
    (hfree : inherited.life = .free) (hinherited : inherited.db = true → inherited.life ≠ .free) :
    ∀ call ∈ calls, ∃ c', call = .closeV2 c' ∧ c'.opener = pid := by
  cases h with
  | own _ _ hcalls => exact hcalls
  | kept hlife life => exact absurd hfree hlife
  | closed hopened _ life => exact absurd hfree (hinherited hopened)
  | discarded hopened _ life => exact absurd hfree (hinherited hopened)

/-- Out of reach, or collected. -/
theorem setLife (h : Course pid inherited connection x c calls) {life : Life} (hlife : life ≠ .free) :
    Course pid inherited connection { x with life } c calls := by
  cases h with
  | own hfree hopened hcalls =>
      refine .own hfree (fun hx => ?_) hcalls
      obtain ⟨hwell, howner⟩ := hopened hx
      exact ⟨⟨hlife, hwell.opener, hwell.writable⟩, howner⟩
  | kept hlife' _ => exact .kept hlife' life
  | closed hopened hreadonly _ => exact .closed hopened hreadonly life
  | discarded hopened hreadonly _ => exact .discarded hopened hreadonly life

/-- `sqlite3_close_v2`, of a connection that is read-only or the process's own. -/
theorem closeV2 (h : Course pid inherited connection x c calls) (hx : x.db = true)
    (hforeign : inherited.db = true → inherited.owner ≠ pid)
    (howned : x.readonly = true ∨ x.owner = pid) :
    Course pid inherited connection { x with db := false } c.closeV2 (calls ++ [.closeV2 c]) := by
  cases h with
  | own hfree hopened hcalls =>
      obtain ⟨hwell, howner⟩ := hopened hx
      refine .own hfree (fun hfalse => absurd hfalse Bool.false_ne_true) fun call hcall => ?_
      rcases List.mem_append.mp hcall with hcall | hcall
      · exact hcalls call hcall
      · exact ⟨c, List.mem_singleton.mp hcall, hwell.opener.trans howner⟩
  | kept _ life =>
      have hopened : inherited.db = true := hx
      exact .closed hopened (howned.resolve_right (hforeign hopened)) life
  | closed _ _ life => cases hx
  | discarded _ _ life => cases hx

/-- `discard_db`, of a writable connection of another process. -/
theorem discardDb (h : Course pid inherited connection x c calls) (hx : x.db = true)
    (hreadonly : x.readonly = false) (hforeign : x.owner ≠ pid) :
    Course pid inherited connection { x with db := false, discarded := true } c
      (calls ++ [.releaseFiles c]) := by
  cases h with
  | own _ hopened _ => exact absurd (hopened hx).2 hforeign
  | kept _ life =>
      have hopened : inherited.db = true := hx
      have hwritable : inherited.readonly = false := hreadonly
      exact .discarded hopened hwritable life
  | closed _ _ life => cases hx
  | discarded _ _ life => cases hx

end Course

/-! ## What the processes keep -/

/-- What the life of a wrapper tells of the weak references to it. -/
structure Found (x : Database) (dead : Prop) : Prop where
  collected : x.life = .collected → dead ∧ x.db = false
  life : dead → x.life = .dropped ∨ x.life = .collected

theorem found_reachable {x : Database} {dead : Prop} (hlife : x.life = .reachable)
    (halive : ¬ dead) : Found x dead := ⟨by simp [hlife], fun hdead => absurd hdead halive⟩

structure Inv (p : Process) (number : Pid) : Prop where
  pid : p.memory.pid = number
  inherited : ∀ d, (p.inherited.databases d).db = true →
    WellOpened (p.inherited.databases d) (p.inherited.connections d) ∧
      (p.inherited.databases d).owner ≠ number
  course : ∀ d, p.Course d
  life : ∀ d, (p.inherited.databases d).life ≠ .free ∨ (p.memory.databases d).db = true →
    (p.memory.databases d).life ≠ .free
  found : ∀ d, Found (p.memory.databases d) (d ∈ p.dead)

theorem Inv.wellOpened {p : Process} {pid : Pid} (h : Inv p pid) {d : DbId}
    (hd : (p.memory.databases d).db = true) :
    WellOpened (p.memory.databases d) (p.memory.connections d) :=
  (h.course d).wellOpened (fun hi => (h.inherited d hi).1) (h.life d (Or.inr hd)) hd

/-- The process has changed as far as one database is concerned, and in what the hook
tracks. -/
structure ChangedAt (d : DbId) (p p' : Process) : Prop where
  pid : p'.memory.pid = p.memory.pid
  inherited : p'.inherited = p.inherited
  dead : p'.dead = p.dead
  hook : p'.hook = p.hook
  databases : ∀ d' ≠ d, p'.memory.databases d' = p.memory.databases d'
  connections : ∀ d' ≠ d, p'.memory.connections d' = p.memory.connections d'
  calls : ∀ d' ≠ d, p'.calls d' = p.calls d'

theorem ChangedAt.trans {p p' p'' : Process} {d : DbId} (h : ChangedAt d p p')
    (h' : ChangedAt d p' p'') : ChangedAt d p p'' where
  pid := h'.pid.trans h.pid
  inherited := h'.inherited.trans h.inherited
  dead := h'.dead.trans h.dead
  hook := h'.hook.trans h.hook
  databases d' hne := (h'.databases d' hne).trans (h.databases d' hne)
  connections d' hne := (h'.connections d' hne).trans (h.connections d' hne)
  calls d' hne := (h'.calls d' hne).trans (h.calls d' hne)

theorem Inv.changedAt {p p' : Process} {pid : Pid} {d : DbId} (h : Inv p pid)
    (hchanged : ChangedAt d p p') (hcourse : p'.Course d)
    (hlife : (p.inherited.databases d).life ≠ .free ∨ (p'.memory.databases d).db = true →
      (p'.memory.databases d).life ≠ .free)
    (hfound : Found (p'.memory.databases d) (d ∈ p.dead)) : Inv p' pid where
  pid := hchanged.pid.trans h.pid
  inherited := by
    rw [hchanged.inherited]
    exact h.inherited
  course d' := by
    by_cases heq : d' = d
    · exact heq ▸ hcourse
    · rw [Process.Course, hchanged.pid, hchanged.inherited, hchanged.databases d' heq,
        hchanged.connections d' heq, hchanged.calls d' heq]
      exact h.course d'
  life d' hd' := by
    rw [hchanged.inherited] at hd'
    by_cases heq : d' = d
    · subst heq
      exact hlife hd'
    · rw [hchanged.databases d' heq] at hd' ⊢
      exact h.life d' hd'
  found d' := by
    rw [hchanged.dead]
    by_cases heq : d' = d
    · exact heq ▸ hfound
    · rw [hchanged.databases d' heq]
      exact h.found d'

section Perform

variable (p : Process) (d : DbId)

theorem perform_openDatabase_changedAt (readonly : Bool) :
    ChangedAt d p (p.perform d (openDatabase d readonly)) where
  pid := rfl
  inherited := rfl
  dead := rfl
  hook := rfl
  databases _ hne := Function.update_of_ne hne ..
  connections _ hne := Function.update_of_ne hne ..
  calls _ hne := Function.update_of_ne hne ..

theorem setDatabase_changedAt (x : Database) : ChangedAt d p (p.setDatabase d x) where
  pid := rfl
  inherited := rfl
  dead := rfl
  hook := rfl
  databases _ hne := Function.update_of_ne hne ..
  connections _ _ := rfl
  calls _ _ := rfl

@[simp] theorem setDatabase_databases (x : Database) :
    (p.setDatabase d x).memory.databases d = x := Function.update_self ..

/-- `deallocate` closes or discards, and the wrapper is gone. -/
theorem perform_deallocate : p.perform d (databaseDeallocate d) =
    (p.perform d (closeOrDiscardDb d)).setDatabase d
      { (p.perform d (closeOrDiscardDb d)).memory.databases d with life := .collected } := by
  rw [Process.perform, databaseDeallocate, RubyM.bind_run_ok () _ (closeOrDiscardDb_run _ d),
    Process.perform, closeOrDiscardDb_run]
  rfl

end Perform

/-- What the wrapper and the record of its connection are after `close_or_discard_db`. -/
structure Closed (d : DbId) (p p' : Process) (x : Database) (c : Connection)
    (new : List SqliteCall) : Prop where
  changed : ChangedAt d p p'
  tracked : p'.memory.tracked = p.memory.tracked
  database : p'.memory.databases d = x
  connection : p'.memory.connections d = c
  calls : p'.calls d = p.calls d ++ new

section CloseOrDiscard

variable {m : Memory} {p : Process} {d : DbId}

theorem closedOrDiscarded_closed (hd : (m.databases d).db = false) :
    m.closedOrDiscarded d = m := by
  simp [Memory.closedOrDiscarded, hd]

theorem closedOrDiscarded_owned (hd : (m.databases d).db = true)
    (howned : (m.databases d).readonly = true ∨ (m.databases d).owner = m.pid) :
    m.closedOrDiscarded d = ((m.setConnection d (m.connections d).closeV2).call
      (.closeV2 (m.connections d))).setDatabase d { m.databases d with db := false } := by
  simp [Memory.closedOrDiscarded, hd, howned]

theorem closedOrDiscarded_foreign (hd : (m.databases d).db = true)
    (hforeign : ¬ ((m.databases d).readonly = true ∨ (m.databases d).owner = m.pid)) :
    m.closedOrDiscarded d =
      (m.setDatabase d { m.databases d with db := false, discarded := true }).call
        (.releaseFiles (m.connections d)) := by
  simp [Memory.closedOrDiscarded, hd, hforeign]

/-- A memory without the record of its calls. -/
def forget (m : Memory) : Memory := { m with calls := [] }

theorem perform_close : p.perform d (closeOrDiscardDb d) =
    { p with
      memory := (forget p.memory).closedOrDiscarded d
      calls := Function.update p.calls d
        (p.calls d ++ ((forget p.memory).closedOrDiscarded d).calls) } := by
  rw [Process.perform, closeOrDiscardDb_run]
  rfl

theorem perform_close_closed (hd : (p.memory.databases d).db = false) :
    Closed d p (p.perform d (closeOrDiscardDb d)) (p.memory.databases d) (p.memory.connections d)
      [] := by
  have hrun := closedOrDiscarded_closed (m := forget p.memory) hd
  rw [perform_close, hrun]
  exact ⟨⟨rfl, rfl, rfl, rfl, fun _ _ => rfl, fun _ _ => rfl,
    fun _ hne => Function.update_of_ne hne ..⟩, rfl, rfl, rfl, Function.update_self ..⟩

theorem perform_close_owned (hd : (p.memory.databases d).db = true)
    (howned : (p.memory.databases d).readonly = true ∨
      (p.memory.databases d).owner = p.memory.pid) :
    Closed d p (p.perform d (closeOrDiscardDb d)) { p.memory.databases d with db := false }
      (p.memory.connections d).closeV2 [.closeV2 (p.memory.connections d)] := by
  have hrun := closedOrDiscarded_owned (m := forget p.memory) hd howned
  rw [perform_close, hrun]
  exact ⟨⟨rfl, rfl, rfl, rfl, fun _ hne => Function.update_of_ne hne ..,
    fun _ hne => Function.update_of_ne hne .., fun _ hne => Function.update_of_ne hne ..⟩,
    rfl, Function.update_self .., Function.update_self .., Function.update_self ..⟩

theorem perform_close_foreign (hd : (p.memory.databases d).db = true)
    (hforeign : ¬ ((p.memory.databases d).readonly = true ∨
      (p.memory.databases d).owner = p.memory.pid)) :
    Closed d p (p.perform d (closeOrDiscardDb d))
      { p.memory.databases d with db := false, discarded := true } (p.memory.connections d)
      [.releaseFiles (p.memory.connections d)] := by
  have hrun := closedOrDiscarded_foreign (m := forget p.memory) hd hforeign
  rw [perform_close, hrun]
  exact ⟨⟨rfl, rfl, rfl, rfl, fun _ hne => Function.update_of_ne hne .., fun _ _ => rfl,
    fun _ hne => Function.update_of_ne hne ..⟩, rfl, Function.update_self .., rfl,
    Function.update_self ..⟩

end CloseOrDiscard

/-- What `close_or_discard_db` does to a process. -/
structure Closes (d : DbId) (p p' : Process) : Prop where
  changed : ChangedAt d p p'
  course : p'.Course d
  tracked : p'.memory.tracked = p.memory.tracked
  db : (p'.memory.databases d).db = false
  readonly : (p'.memory.databases d).readonly = (p.memory.databases d).readonly
  life : (p'.memory.databases d).life = (p.memory.databases d).life

theorem Inv.perform_close {p : Process} {pid : Pid} (h : Inv p pid) (d : DbId) :
    Closes d p (p.perform d (closeOrDiscardDb d)) := by
  have hcourse := h.course d
  have hforeign (hopened : (p.inherited.databases d).db = true) :
      (p.inherited.databases d).owner ≠ p.memory.pid := by
    rw [h.pid]
    exact (h.inherited d hopened).2
  cases hd : (p.memory.databases d).db with
  | false =>
      obtain ⟨hchanged, htracked, hdatabase, hconnection, hcalls⟩ := perform_close_closed hd
      refine ⟨hchanged, ?_, htracked, ?_, ?_, ?_⟩
      · rw [Process.Course, hchanged.pid, hchanged.inherited, hdatabase, hconnection, hcalls,
          List.append_nil]
        exact hcourse
      · rw [hdatabase, hd]
      · rw [hdatabase]
      · rw [hdatabase]
  | true =>
      by_cases howned : (p.memory.databases d).readonly = true ∨
          (p.memory.databases d).owner = p.memory.pid
      · obtain ⟨hchanged, htracked, hdatabase, hconnection, hcalls⟩ :=
          perform_close_owned hd howned
        refine ⟨hchanged, ?_, htracked, ?_, ?_, ?_⟩
        · rw [Process.Course, hchanged.pid, hchanged.inherited, hdatabase, hconnection, hcalls]
          exact hcourse.closeV2 hd hforeign howned
        · rw [hdatabase]
        · rw [hdatabase]
        · rw [hdatabase]
      · obtain ⟨hwritable, hother⟩ := not_or.mp howned
        have hreadonly := Bool.eq_false_iff.mpr hwritable
        obtain ⟨hchanged, htracked, hdatabase, hconnection, hcalls⟩ :=
          perform_close_foreign hd howned
        refine ⟨hchanged, ?_, htracked, ?_, ?_, ?_⟩
        · rw [Process.Course, hchanged.pid, hchanged.inherited, hdatabase, hconnection, hcalls]
          exact hcourse.discardDb hd hreadonly hother
        · rw [hdatabase]
        · rw [hdatabase]
        · rw [hdatabase]

theorem Inv.setLife {p : Process} {pid : Pid} (h : Inv p pid) {d : DbId} {life : Life}
    (hlife : life ≠ .free) (hfound : Found { p.memory.databases d with life } (d ∈ p.dead)) :
    Inv (p.setDatabase d { p.memory.databases d with life }) pid := by
  refine h.changedAt (setDatabase_changedAt p d _) ?_ ?_ ?_
  · rw [Process.Course, setDatabase_databases]
    exact (h.course d).setLife hlife
  · rw [setDatabase_databases]
    exact fun _ => hlife
  · rwa [setDatabase_databases]

theorem Inv.close {p : Process} {pid : Pid} (h : Inv p pid) (d : DbId) :
    Inv (p.perform d (closeOrDiscardDb d)) pid := by
  have hcloses := h.perform_close d
  refine h.changedAt hcloses.changed hcloses.course ?_ ?_
  · rw [hcloses.life, hcloses.db]
    exact fun hd => h.life d (Or.inl (hd.resolve_right Bool.false_ne_true))
  · exact ⟨fun hcollected => ⟨((h.found d).collected (hcloses.life ▸ hcollected)).1, hcloses.db⟩,
      fun hdead => hcloses.life ▸ (h.found d).life hdead⟩

theorem Inv.deallocate {p : Process} {pid : Pid} (h : Inv p pid) {d : DbId} (hdead : d ∈ p.dead) :
    Inv (p.perform d (databaseDeallocate d)) pid := by
  rw [perform_deallocate]
  have hcloses := h.perform_close d
  refine (h.close d).setLife (by simp) ⟨fun _ => ⟨?_, hcloses.db⟩, fun _ => Or.inr rfl⟩
  rwa [hcloses.changed.dead]

/-- An object that is new in the process. -/
theorem Inv.own {p p' : Process} {pid : Pid} (h : Inv p pid) {d : DbId}
    (hfree : (p.memory.databases d).life = .free) (hchanged : ChangedAt d p p')
    (hcalls : p'.calls d = p.calls d)
    (hopened : (p'.memory.databases d).db = true →
      WellOpened (p'.memory.databases d) (p'.memory.connections d) ∧
        (p'.memory.databases d).owner = p.memory.pid)
    (hlife : (p'.memory.databases d).life = .reachable) : Inv p' pid := by
  have hinherited : (p.inherited.databases d).life = .free := by
    by_contra hne
    exact h.life d (Or.inl hne) hfree
  have halive : d ∉ p.dead := fun hdead => by
    have := (h.found d).life hdead
    simp [hfree] at this
  refine h.changedAt hchanged ?_ (fun _ => by simp [hlife]) (found_reachable hlife halive)
  rw [Process.Course, hchanged.inherited, hchanged.pid, hcalls]
  exact .own hinherited hopened
    ((h.course d).closes_own hinherited fun hd => (h.inherited d hd).1.life)

/-! ## The hook -/

/-- The databases that the hook has not yet dealt with. -/
def Hook.ahead : Hook → List DbId
  | each databases _ => databases
  | isClosed d rest _ | isReadonly d rest _ | warn d rest | close d rest => d :: rest
  | cleared => []

/-- The database that it has found writable. -/
def Hook.found : Hook → Option DbId
  | warn d _ | close d _ => some d
  | _ => none

def Process.Settled (p : Process) (d : DbId) : Prop :=
  (p.memory.databases d).db = false ∨ (p.memory.databases d).readonly = true

/-- What holds while the hook runs. -/
structure Hooked (p : Process) (h : Hook) : Prop where
  cleared : h = .cleared → p.memory.tracked = []
  settled : ∀ d ∈ p.inherited.tracked, d ∉ p.dead → d ∈ h.ahead ∨ p.Settled d
  found : ∀ d, h.found = some d → (p.memory.databases d).readonly = false
  readonly : ∀ d, (p.inherited.databases d).db = true →
    (p.inherited.databases d).readonly = true → (p.memory.databases d).life ≠ .collected →
      (p.memory.databases d).db = true

namespace Hooked

variable {p p' : Process} {h h' : Hook} {d : DbId}

/-- The hook has found out something about the database it is at. -/
theorem stay (hooked : Hooked p h) (hcleared : h' ≠ .cleared) (hahead : h'.ahead = h.ahead)
    (hfound : ∀ d, h'.found = some d → (p.memory.databases d).readonly = false) :
    Hooked { p with hook := some h' } h' where
  cleared heq := absurd heq hcleared
  settled := by
    rw [hahead]
    exact hooked.settled
  found := hfound
  readonly := hooked.readonly

/-- The hook goes on to the next database. -/
theorem skip (hooked : Hooked p h) {rest : List DbId} (hahead : h.ahead = d :: rest)
    (hskip : d ∈ p.dead ∨ p.Settled d) (warned : Bool) :
    Hooked { p with hook := some (.each rest warned) } (.each rest warned) where
  cleared heq := nomatch heq
  settled d' hd' halive := by
    rcases hooked.settled d' hd' halive with hd' | hsettled
    · rw [hahead] at hd'
      rcases List.mem_cons.mp hd' with rfl | hd'
      · exact Or.inr (hskip.resolve_left halive)
      · exact Or.inl hd'
    · exact Or.inr hsettled
  found _ hfound := nomatch hfound
  readonly := hooked.readonly

theorem changedAt (hooked : Hooked p h) (hchanged : ChangedAt d p p')
    (hcleared : h' = .cleared → p'.memory.tracked = [])
    (hahead : ∀ d' ≠ d, d' ∈ h.ahead → d' ∈ h'.ahead)
    (hsettled : d ∈ h.ahead ∨ p.Settled d → d ∈ h'.ahead ∨ p'.Settled d)
    (hfound : ∀ d', h'.found = some d' → (p.memory.databases d').readonly = false)
    (hflag : (p'.memory.databases d).readonly = (p.memory.databases d).readonly)
    (hreadonly : (p.inherited.databases d).db = true →
      (p.inherited.databases d).readonly = true → (p'.memory.databases d).life ≠ .collected →
        (p'.memory.databases d).db = true) : Hooked p' h' where
  cleared := hcleared
  settled d' hd' halive := by
    rw [hchanged.inherited] at hd'
    rw [hchanged.dead] at halive
    by_cases heq : d' = d
    · subst heq
      exact hsettled (hooked.settled d' hd' halive)
    · rw [Process.Settled, hchanged.databases d' heq]
      exact (hooked.settled d' hd' halive).imp_left (hahead d' heq)
  found d' hd' := by
    by_cases heq : d' = d
    · subst heq
      exact hflag.trans (hfound d' hd')
    · rw [hchanged.databases d' heq]
      exact hfound d' hd'
  readonly d' hopened hreadonly' hlife := by
    rw [hchanged.inherited] at hopened hreadonly'
    by_cases heq : d' = d
    · subst heq
      exact hreadonly hopened hreadonly' hlife
    · rw [hchanged.databases d' heq] at hlife ⊢
      exact hooked.readonly d' hopened hreadonly' hlife

/-- A wrapper gets out of reach while the hook runs. -/
theorem drop (hooked : Hooked p h) (hlife : (p.memory.databases d).life ≠ .collected) :
    Hooked (p.setDatabase d { p.memory.databases d with life := .dropped }) h := by
  refine hooked.changedAt (setDatabase_changedAt p d _) hooked.cleared (fun _ _ => id) ?_
    hooked.found ?_ ?_
  · rw [Process.Settled, Process.Settled, setDatabase_databases]
    exact id
  · rw [setDatabase_databases]
  · rw [setDatabase_databases]
    exact fun hopened hreadonly _ => hooked.readonly d hopened hreadonly hlife

theorem deallocate {pid : Pid} (hooked : Hooked p h) (hinv : Inv p pid) :
    Hooked (p.perform d (databaseDeallocate d)) h := by
  have hcloses := hinv.perform_close d
  rw [perform_deallocate]
  refine hooked.changedAt (hcloses.changed.trans (setDatabase_changedAt _ d _))
    (fun heq => hcloses.tracked.trans (hooked.cleared heq)) (fun _ _ => id) (fun _ => ?_)
    hooked.found ?_ fun _ _ hlife => absurd ?_ hlife
  · rw [Process.Settled, setDatabase_databases]
    exact Or.inr (Or.inl hcloses.db)
  · rw [setDatabase_databases]
    exact hcloses.readonly
  · rw [setDatabase_databases]

/-- The hook closes a writable database. -/
theorem close {pid : Pid} {rest : List DbId} (hooked : Hooked p (.close d rest))
    (hinv : Inv p pid) : Hooked (p.perform d (closeOrDiscardDb d)) (.each rest true) := by
  have hcloses := hinv.perform_close d
  have hwritable := hooked.found d rfl
  refine hooked.changedAt hcloses.changed (fun heq => nomatch heq) (fun d' hne hd' => ?_)
    (fun _ => Or.inr (Or.inl hcloses.db)) (fun _ hfound => nomatch hfound) hcloses.readonly
    fun hopened hreadonly _ => ?_
  · exact (List.mem_cons.mp hd').resolve_left hne
  · have hflag := (hinv.course d).readonly (hinv.inherited d hopened).1.life
    rw [hwritable, hreadonly] at hflag
    cases hflag

theorem setHook (hooked : Hooked p h) (hook : Option Hook) : Hooked { p with hook } h :=
  ⟨hooked.cleared, hooked.settled, hooked.found, hooked.readonly⟩

/-- Each call of the hook leads to the next. -/
theorem hookStep {pid : Pid} (hooked : Hooked p h) (hinv : Inv p pid) {h' : Hook}
    (hstep : (p.hookStep h).hook = some h') : Hooked (p.hookStep h) h' := by
  cases h with
  | each databases warned =>
      cases databases with
      | nil =>
          obtain rfl := Option.some.inj hstep
          exact ⟨fun _ => rfl, hooked.settled, fun _ hfound => (nomatch hfound), hooked.readonly⟩
      | cons d rest =>
          obtain rfl := Option.some.inj hstep
          rw [Process.hookStep]
          split
          · exact hooked.skip rfl (Or.inl ‹_›) warned
          · exact hooked.stay (by simp) rfl fun _ hfound => nomatch hfound
  | isClosed d rest warned =>
      obtain rfl := Option.some.inj hstep
      rw [Process.hookStep]
      split
      · rename_i hskip
        exact hooked.skip rfl (hskip.imp_right Or.inl) warned
      · exact hooked.stay (by simp) rfl fun _ hfound => nomatch hfound
  | isReadonly d rest warned =>
      obtain rfl := Option.some.inj hstep
      rw [Process.hookStep]
      split
      · rename_i hskip
        exact hooked.skip rfl (hskip.imp_right Or.inr) warned
      · rename_i hfound
        have hwritable := Bool.eq_false_iff.mpr (not_or.mp hfound).2
        split
        all_goals
          refine hooked.stay (by simp) rfl fun d' hd' => ?_
          obtain rfl := Option.some.inj hd'
          exact hwritable
  | warn d rest =>
      obtain rfl := Option.some.inj hstep
      exact hooked.stay (by simp) rfl hooked.found
  | close d rest =>
      rw [Process.hookStep] at hstep ⊢
      split
      · rename_i hdead
        rw [if_pos hdead] at hstep
        obtain rfl := Option.some.inj hstep
        exact hooked.skip rfl (Or.inl hdead) true
      · rename_i halive
        rw [if_neg halive] at hstep
        obtain rfl := Option.some.inj hstep
        exact (hooked.close hinv).setHook _
  | cleared => cases hstep

end Hooked

theorem Inv.setHook {p : Process} {pid : Pid} (h : Inv p pid) (hook : Option Hook) :
    Inv { p with hook } pid := ⟨h.pid, h.inherited, h.course, h.life, h.found⟩

theorem Inv.hookStep {p : Process} {pid : Pid} (h : Inv p pid) (hook : Hook) :
    Inv (p.hookStep hook) pid := by
  cases hook with
  | each databases warned =>
      cases databases with
      | nil => exact ⟨h.pid, h.inherited, h.course, h.life, h.found⟩
      | cons d rest => exact h.setHook _
  | isClosed d rest warned => exact h.setHook _
  | isReadonly d rest warned => exact h.setHook _
  | warn d rest => exact h.setHook _
  | close d rest =>
      rw [Process.hookStep]
      split
      · exact h.setHook _
      · exact (h.close d).setHook _
  | cleared => exact h.setHook none

/-- There is a next call until the hook returns, and one less is left. -/
theorem hookStep_remaining (p : Process) {h : Hook} (hne : h ≠ .cleared) :
    ∃ h', (p.hookStep h).hook = some h' ∧ h'.remaining < h.remaining := by
  cases h with
  | each databases warned =>
      cases databases with
      | nil => exact ⟨_, rfl, Nat.zero_lt_succ _⟩
      | cons d rest =>
          refine ⟨_, rfl, ?_⟩
          split <;> simp only [Hook.remaining, List.length_cons] <;> omega
  | isClosed d rest warned =>
      refine ⟨_, rfl, ?_⟩
      split <;> simp only [Hook.remaining] <;> omega
  | isReadonly d rest warned =>
      refine ⟨_, rfl, ?_⟩
      split
      · simp only [Hook.remaining]
        omega
      · split <;> simp only [Hook.remaining] <;> omega
  | warn d rest => exact ⟨_, rfl, Nat.lt_succ_self _⟩
  | close d rest =>
      refine ⟨.each rest true, ?_, Nat.lt_succ_self _⟩
      rw [Process.hookStep]
      split <;> rfl
  | cleared => exact absurd rfl hne

theorem run_hook {p : Process} {h : Hook} (hhook : p.hook = some h) :
    p.run .hook = some (p.hookStep h) := by
  simp [Process.run, Event.isEnabled, Process.happen, hhook]

theorem exec_hook {p p' : Process} {h : Hook} (hhook : p.hook = some h) {n : Nat}
    (hexec : StepSystem.exec Process.run (p.hookStep h) (List.replicate n .hook) = some p') :
    StepSystem.exec Process.run p (List.replicate (n + 1) .hook) = some p' := by
  rw [List.replicate_succ]
  exact (StepSystem.exec_cons_eq_some Process.run).mpr ⟨_, run_hook hhook, hexec⟩

/-- The hook comes to its end. -/
theorem hook_returns (n : Nat) {p : Process} {h : Hook} (hhook : p.hook = some h)
    (hn : h.remaining ≤ n) : ∃ k ≤ h.remaining, ∃ p',
      StepSystem.exec Process.run p (List.replicate k .hook) = some p' ∧
        p'.hook = some .cleared := by
  induction n generalizing p h with
  | zero =>
      by_cases hcleared : h = .cleared
      · exact ⟨0, Nat.zero_le _, p, rfl, hcleared ▸ hhook⟩
      · obtain ⟨_, _, hlt⟩ := hookStep_remaining p hcleared
        omega
  | succ n ih =>
      by_cases hcleared : h = .cleared
      · exact ⟨0, Nat.zero_le _, p, rfl, hcleared ▸ hhook⟩
      · obtain ⟨h', hhook', hlt⟩ := hookStep_remaining p hcleared
        obtain ⟨k, hk, p', hexec, hp'⟩ := ih hhook' (by omega)
        exact ⟨k + 1, by omega, p', exec_hook hhook hexec, hp'⟩

/-! ## The hook when nothing dies -/

/-- So many calls of the hook lead from one state of a process to another. -/
def Leads (p p' : Process) : Prop :=
  ∃ n, StepSystem.exec Process.run p (List.replicate n .hook) = some p'

theorem Leads.step {p q p' : Process} {h : Hook} (hhook : p.hook = some h)
    (hstep : p.hookStep h = q) (hleads : Leads q p') : Leads p p' := by
  obtain ⟨n, hexec⟩ := hleads
  exact ⟨n + 1, exec_hook hhook (hstep ▸ hexec)⟩

theorem Leads.one {p q : Process} {h : Hook} (hhook : p.hook = some h)
    (hstep : p.hookStep h = q) : Leads p q := .step hhook hstep ⟨0, rfl⟩

theorem Leads.trans {p q p' : Process} (hfirst : Leads p q) (hsecond : Leads q p') :
    Leads p p' := by
  obtain ⟨n, hn⟩ := hfirst
  obtain ⟨k, hk⟩ := hsecond
  refine ⟨n + k, ?_⟩
  rw [List.replicate_add, StepSystem.exec_append, hn]
  exact hk

section Loop

variable {p : Process} {d : DbId} {rest : List DbId} {warned : Bool}

/-- A round of the hook over a database that is dead, closed or read-only. -/
theorem round_skips (hhook : p.hook = some (.each (d :: rest) warned))
    (hskip : d ∈ p.dead ∨ p.Settled d) : Leads p { p with hook := some (.each rest warned) } := by
  by_cases hdead : d ∈ p.dead
  · exact .one hhook (by simp [Process.hookStep, hdead])
  · refine .step hhook (q := { p with hook := some (.isClosed d rest warned) })
      (by simp [Process.hookStep, hdead]) ?_
    by_cases hclosed : (p.memory.databases d).db = false
    · exact .one rfl (by simp [Process.hookStep, hclosed])
    · have hreadonly := (hskip.resolve_left hdead).resolve_left hclosed
      refine .step rfl (q := { p with hook := some (.isReadonly d rest warned) })
        (by simp [Process.hookStep, hdead, hclosed]) ?_
      exact .one rfl (by simp [Process.hookStep, hreadonly])

/-- A round of the hook over a database that is open and writable. -/
theorem round_closes (hhook : p.hook = some (.each (d :: rest) warned)) (halive : d ∉ p.dead)
    (hunsettled : ¬ p.Settled d) :
    Leads p { p.perform d (closeOrDiscardDb d) with hook := some (.each rest true) } := by
  obtain ⟨hopen, hwritable⟩ := not_or.mp hunsettled
  have hcloses : Leads { p with hook := some (.close d rest) }
      { p.perform d (closeOrDiscardDb d) with hook := some (.each rest true) } := by
    refine .one rfl ?_
    rw [Process.hookStep, if_neg halive]
    rfl
  refine .step hhook (q := { p with hook := some (.isClosed d rest warned) })
    (by simp [Process.hookStep, halive]) ?_
  refine .step rfl (q := { p with hook := some (.isReadonly d rest warned) })
    (by simp [Process.hookStep, halive, hopen]) ?_
  cases warned with
  | true => exact .step rfl (by simp [Process.hookStep, halive, hwritable]) hcloses
  | false =>
      refine .step rfl (q := { p with hook := some (.warn d rest) })
        (by simp [Process.hookStep, halive, hwritable]) ?_
      exact .step rfl rfl hcloses

/-- What the loop of `ForkSafety.discard` asks of a database, in one go. -/
theorem isInherited_iff {pid : Pid} (hinv : Inv p pid) {alive : DbId → Bool}
    (halive : ∀ d, alive d = true ↔ d ∉ p.dead) {m : Memory}
    (hm : m.databases = p.memory.databases) (d : DbId) :
    m.isInherited alive d = true ↔ d ∉ p.dead ∧ ¬ p.Settled d := by
  have hfound := hinv.found d
  rw [Memory.isInherited, hm]
  simp only [Bool.and_eq_true, Bool.or_eq_true, decide_eq_true_eq, Bool.not_eq_true',
    Process.Settled, not_or, Bool.not_eq_true, Bool.not_eq_false, halive]
  constructor
  · rintro ⟨⟨hlife, hopen⟩, hwritable⟩
    refine ⟨fun hdead => ?_, hopen, hwritable⟩
    rcases hlife with hreachable | ⟨-, halive'⟩
    · rcases hfound.life hdead with hlife | hlife <;> cases hreachable.symm.trans hlife
    · exact halive' hdead
  · rintro ⟨halive', hopen, hwritable⟩
    refine ⟨⟨?_, hopen⟩, hwritable⟩
    cases hlife : (p.memory.databases d).life with
    | free => exact absurd hlife (hinv.life d (Or.inr hopen))
    | reachable => exact Or.inl rfl
    | dropped => exact Or.inr ⟨rfl, halive'⟩
    | collected =>
        exact absurd (hopen.symm.trans (hfound.collected hlife).2) Bool.false_ne_true.symm

theorem closedOrDiscarded_forget (m : Memory) (d : DbId) :
    forget ((forget m).closedOrDiscarded d) = forget (m.closedOrDiscarded d) := by
  cases hd : (m.databases d).db with
  | false =>
      rw [closedOrDiscarded_closed (m := forget m) hd, closedOrDiscarded_closed hd]
      rfl
  | true =>
      by_cases howned : (m.databases d).readonly = true ∨ (m.databases d).owner = m.pid
      · rw [closedOrDiscarded_owned (m := forget m) hd howned, closedOrDiscarded_owned hd howned]
        rfl
      · rw [closedOrDiscarded_foreign (m := forget m) hd howned,
          closedOrDiscarded_foreign hd howned]
        rfl

/-- The loop raises nothing. -/
theorem discardLoop_result (alive : DbId → Bool) (ds : List DbId) (m : Memory) :
    discardLoop alive ds m = (.ok (), (discardLoop alive ds m).2) := by
  induction ds generalizing m with
  | nil => rfl
  | cons d ds ih =>
      rw [discardLoop, RubyM.get_bind]
      split
      · rw [RubyM.bind_run_ok () _ (closeOrDiscardDb_run m d)]
        exact ih (m.closedOrDiscarded d)
      · exact ih m

/-- When the collector does not run in between, the hook does what `ForkSafety.discard` does
in one go. -/
theorem loop_leads {alive : DbId → Bool} (ds : List DbId) {p : Process} {pid : Pid}
    {warned : Bool} {m : Memory} (hinv : Inv p pid) (hhook : p.hook = some (.each ds warned))
    (halive : ∀ d, alive d = true ↔ d ∉ p.dead) (hm : forget m = forget p.memory) :
    ∃ p', Leads p p' ∧ p'.hook = some .cleared ∧
      forget p'.memory = { forget (discardLoop alive ds m).2 with tracked := [] } := by
  induction ds generalizing p warned m with
  | nil =>
      refine ⟨p.hookStep (.each [] warned), .one hhook rfl, rfl, ?_⟩
      change { forget p.memory with tracked := [] } = _
      rw [← hm]
      rfl
  | cons d ds ih =>
      have hdatabases : m.databases = p.memory.databases := congrArg (·.databases) hm
      have hinherited := isInherited_iff hinv halive hdatabases d
      rw [discardLoop, RubyM.get_bind]
      by_cases hfound : m.isInherited alive d = true
      · obtain ⟨hlive, hunsettled⟩ := hinherited.mp hfound
        rw [if_pos hfound, RubyM.bind_run_ok () _ (closeOrDiscardDb_run m d)]
        have hclosed := hinv.close d
        have hdead := (hinv.perform_close d).changed.dead
        have hmemory : forget (m.closedOrDiscarded d) =
            forget (p.perform d (closeOrDiscardDb d)).memory := by
          rw [perform_close, ← closedOrDiscarded_forget, hm]
        obtain ⟨p', hleads, hcleared, hmemory'⟩ :=
          ih (p := { p.perform d (closeOrDiscardDb d) with hook := some (.each ds true) })
            (hclosed.setHook _) rfl (fun d' => hdead ▸ halive d') hmemory
        exact ⟨p', (round_closes hhook hlive hunsettled).trans hleads, hcleared, hmemory'⟩
      · rw [if_neg hfound]
        have hskip : d ∈ p.dead ∨ p.Settled d := by
          by_contra hnot
          exact hfound (hinherited.mpr (not_or.mp hnot))
        obtain ⟨p', hleads, hcleared, hmemory⟩ :=
          ih (p := { p with hook := some (.each ds warned) }) (hinv.setHook _) rfl halive hm
        exact ⟨p', (round_skips hhook hskip).trans hleads, hcleared, hmemory⟩

end Loop

/-! ## Every process -/

structure Good (p : Process) (number : Pid) : Prop extends Inv p number where
  hooked : ∀ h, p.hook = some h → Hooked p h

/-- What a process does while no hook runs. -/
theorem Inv.good {p : Process} {pid : Pid} (h : Inv p pid) (hhook : p.hook = none) : Good p pid :=
  ⟨h, fun _ hsome => nomatch hhook.symm.trans hsome⟩

theorem Good.respects {p : Process} {pid : Pid} (h : Good p pid) : p.Respects pid where
  closed_by_owner d c hcall hwritable :=
    ((h.course d).opener_of_closeV2 (fun hi => (h.inherited d hi).1) hcall hwritable).trans h.pid
  foreign_discarded d hforeign hopened hd := by
    have hwell (hi : (p.inherited.databases d).db = true) := (h.inherited d hi).1
    refine (h.course d).discarded_of_writable hwell hopened hd ?_
    have hwritable := (Bool.and_eq_true_iff.mp hforeign).2
    rw [(h.course d).connection_writable (hwell hopened).life, (hwell hopened).writable] at hwritable
    simpa using hwritable
  hook_closes hcleared := by
    have hooked := h.hooked _ hcleared
    refine ⟨hooked.cleared rfl, fun d hd halive => ?_⟩
    have hsettled := (hooked.settled d hd halive).resolve_left List.not_mem_nil
    refine ⟨hsettled, fun hopened hreadonly => ?_⟩
    have hflag := (h.course d).readonly (h.inherited d hopened).1.life
    have hclosed := hsettled.resolve_right (by simp [hflag, hreadonly])
    exact ((h.course d).discarded_of_writable (fun hi => (h.inherited d hi).1) hopened hclosed
      hreadonly).2
  readonly_open d hhook hopened hreadonly hlife := by
    obtain ⟨hook, hhook⟩ := Option.isSome_iff_exists.mp hhook
    have hopen := (h.hooked hook hhook).readonly d hopened hreadonly hlife
    exact ⟨hopen, (h.course d).calls_of_open (fun hi => (h.inherited d hi).1) hopened hopen⟩
  hook_returns hook hhook := Ownership.hook_returns hook.remaining hhook le_rfl

theorem Inv.openDatabase {p : Process} {pid : Pid} (h : Inv p pid) {d : DbId}
    (hfree : (p.memory.databases d).life = .free) (readonly : Bool) :
    Inv (p.perform d (openDatabase d readonly)) pid := by
  have hdatabase : (p.perform d (Ownership.openDatabase d readonly)).memory.databases d =
      ⟨true, p.memory.pid, readonly, false, .reachable⟩ := Function.update_self ..
  have hconnection : (p.perform d (Ownership.openDatabase d readonly)).memory.connections d =
      ⟨p.memory.pid, !readonly, .opened, []⟩ := Function.update_self ..
  have hcalls : (p.perform d (Ownership.openDatabase d readonly)).calls d = p.calls d :=
    (Function.update_self ..).trans (List.append_nil _)
  refine h.own hfree (perform_openDatabase_changedAt p d readonly) hcalls (fun _ => ?_) ?_
  · rw [hdatabase, hconnection]
    exact ⟨⟨by simp, rfl, rfl⟩, rfl⟩
  · rw [hdatabase]

theorem Inv.openFails {p : Process} {pid : Pid} (h : Inv p pid) {d : DbId}
    (hfree : (p.memory.databases d).life = .free) :
    Inv (p.setDatabase d ⟨false, p.memory.pid, false, false, .reachable⟩) pid := by
  refine h.own hfree (setDatabase_changedAt p d _) rfl (fun hd => ?_) ?_
  · rw [setDatabase_databases] at hd
    cases hd
  · rw [setDatabase_databases]

theorem Inv.track {p : Process} {pid : Pid} (h : Inv p pid) (d : DbId) :
    Inv (p.perform d (track d)) pid := by
  have hcalls : (p.perform d (Ownership.track d)).calls = p.calls :=
    (congrArg _ (List.append_nil _)).trans (Function.update_eq_self d p.calls)
  refine ⟨h.pid, h.inherited, fun d' => ?_, h.life, h.found⟩
  rw [Process.Course, hcalls]
  exact h.course d'

/-- The collector finds a wrapper out of reach. -/
theorem Inv.find {p : Process} {pid : Pid} (h : Inv p pid) {d : DbId}
    (hlife : (p.memory.databases d).life = .dropped) : Inv { p with dead := d :: p.dead } pid := by
  refine ⟨h.pid, h.inherited, h.course, h.life, fun d' => ⟨fun hcollected => ?_, fun hdead => ?_⟩⟩
  · obtain ⟨hdead, hclosed⟩ := (h.found d').collected hcollected
    exact ⟨List.mem_cons_of_mem d hdead, hclosed⟩
  · rcases List.mem_cons.mp hdead with rfl | hdead
    · exact Or.inl hlife
    · exact (h.found d').life hdead

theorem Hooked.find {p : Process} {h : Hook} (hooked : Hooked p h) (d : DbId) :
    Hooked { p with dead := d :: p.dead } h where
  cleared := hooked.cleared
  settled d' hd' halive := hooked.settled d' hd' fun hmem => halive (List.mem_cons_of_mem d hmem)
  found := hooked.found
  readonly := hooked.readonly

theorem hookStep_inherited (p : Process) (h : Hook) :
    (p.hookStep h).inherited = p.inherited := by
  cases h with
  | each databases warned => cases databases <;> rfl
  | close d rest =>
      rw [Process.hookStep]
      split <;> rfl
  | _ => rfl

/-- Every event keeps what is known of the process, and what it was forked with. -/
theorem Good.run {p p' : Process} {pid : Pid} {e : Event} (h : Good p pid)
    (hrun : p.run e = some p') : Good p' pid ∧ p'.inherited = p.inherited := by
  obtain ⟨henabled, hrun⟩ := Option.ite_none_right_eq_some.mp hrun
  obtain rfl := Option.some.inj hrun
  cases e with
  | openDatabase d readonly =>
      obtain ⟨hhook, hfree⟩ := Bool.and_eq_true_iff.mp henabled
      exact ⟨(h.toInv.openDatabase (of_decide_eq_true hfree) readonly).good
        (Option.isNone_iff_eq_none.mp hhook), rfl⟩
  | openFails d =>
      obtain ⟨hhook, hfree⟩ := Bool.and_eq_true_iff.mp henabled
      exact ⟨(h.toInv.openFails (of_decide_eq_true hfree)).good
        (Option.isNone_iff_eq_none.mp hhook), rfl⟩
  | track d =>
      obtain ⟨hhook, -⟩ := Bool.and_eq_true_iff.mp henabled
      exact ⟨(h.toInv.track d).good (Option.isNone_iff_eq_none.mp hhook), rfl⟩
  | suppressWarnings =>
      exact ⟨Inv.good ⟨h.pid, h.inherited, h.course, h.life, h.found⟩
        (Option.isNone_iff_eq_none.mp henabled), rfl⟩
  | close d =>
      obtain ⟨hhook, -⟩ := Bool.and_eq_true_iff.mp henabled
      exact ⟨(h.toInv.close d).good (Option.isNone_iff_eq_none.mp hhook), rfl⟩
  | drop d =>
      have hlife : (p.memory.databases d).life = .reachable := of_decide_eq_true henabled
      exact ⟨⟨h.toInv.setLife (by simp) ⟨by simp, fun _ => Or.inl rfl⟩, fun hook hhook =>
        (h.hooked hook hhook).drop (by simp [hlife])⟩, rfl⟩
  | find d =>
      exact ⟨⟨h.toInv.find (of_decide_eq_true henabled), fun hook hhook =>
        (h.hooked hook hhook).find d⟩, rfl⟩
  | deallocate d =>
      have hdead := of_decide_eq_true (Bool.and_eq_true_iff.mp henabled).2
      exact ⟨⟨h.toInv.deallocate hdead, fun hook hhook =>
        (h.hooked hook hhook).deallocate h.toInv⟩, rfl⟩
  | hook =>
      obtain ⟨hook, hhook⟩ := Option.isSome_iff_exists.mp henabled
      have hhappen : p.happen .hook = p.hookStep hook := by
        rw [Process.happen, hhook]
        rfl
      rw [hhappen]
      exact ⟨⟨h.toInv.hookStep hook, fun hook' hhook' =>
        (h.hooked hook hhook).hookStep h.toInv hhook'⟩, hookStep_inherited p hook⟩

/-! ## The tree -/

/-- Each process is good, and what it was forked with was opened by a process of the tree. -/
def TreeInv (w : Tree) : Prop :=
  ∀ pid p, w pid = some p → Good p pid ∧
    ∀ d, (p.inherited.databases d).db = true → (w (p.inherited.databases d).owner).isSome = true

theorem isSome_update {w : Tree} (pid : Pid) (p : Process) {pid' : Pid}
    (h : (w pid').isSome = true) : (Function.update w pid (some p) pid').isSome = true := by
  by_cases heq : pid' = pid
  · rw [heq, Function.update_self]
    rfl
  · rwa [Function.update_of_ne heq]

theorem TreeInv.update {w : Tree} (h : TreeInv w) {pid : Pid} {p : Process} (hp : Good p pid)
    (hinherited : ∀ d, (p.inherited.databases d).db = true →
      (w (p.inherited.databases d).owner).isSome = true) :
    TreeInv (Function.update w pid (some p)) := by
  intro pid' p' hp'
  by_cases heq : pid' = pid
  · subst heq
    rw [Function.update_self] at hp'
    obtain rfl := Option.some.inj hp'
    exact ⟨hp, fun d hd => isSome_update pid' p (hinherited d hd)⟩
  · rw [Function.update_of_ne heq] at hp'
    obtain ⟨hgood, hknown⟩ := h pid' p' hp'
    exact ⟨hgood, fun d hd => isSome_update pid p (hknown d hd)⟩

theorem Course.owner {pid : Pid} {inherited x : Database} {connection c : Connection}
    {calls : List SqliteCall} (h : Course pid inherited connection x c calls) (hx : x.db = true) :
    x.owner = pid ∨ inherited.db = true ∧ x.owner = inherited.owner := by
  cases h with
  | own _ hopened _ => exact Or.inl (hopened hx).2
  | kept _ life => exact Or.inr ⟨hx, rfl⟩
  | closed _ _ life => cases hx
  | discarded _ _ life => cases hx

/-- A child begins with what its parent has, and owns nothing of it. -/
theorem Good.forked {p : Process} {pid child : Pid} (h : Good p pid)
    (hchild : ∀ d, (p.memory.databases d).db = true → (p.memory.databases d).owner ≠ child) :
    Good (p.forked child) child where
  pid := rfl
  inherited d hd := ⟨h.wellOpened hd, hchild d hd⟩
  course d := by
    by_cases hlife : (p.memory.databases d).life = .free
    · refine .own hlife (fun hd => ?_) fun _ hcall => absurd hcall List.not_mem_nil
      exact absurd hlife (h.life d (Or.inr hd))
    · exact .kept hlife _
  life d hd := hd.elim id fun hdb => h.life d (Or.inr hdb)
  found := h.found
  hooked hook hhook := by
    obtain rfl := Option.some.inj hhook
    exact ⟨fun heq => (nomatch heq), fun d hd _ => Or.inl hd, fun _ hfound => (nomatch hfound),
      fun d hopened _ _ => hopened⟩

theorem step_event {w w' : Tree} {pid : Pid} {e : Event} (hstep : step w (.event pid e) = some w') :
    ∃ p p', w pid = some p ∧ p.run e = some p' ∧ w' = Function.update w pid (some p') := by
  obtain ⟨p, hp, hstep⟩ := Option.bind_eq_some_iff.mp hstep
  obtain ⟨p', hrun, hstep⟩ := Option.bind_eq_some_iff.mp hstep
  exact ⟨p, p', hp, hrun, (Option.some.inj hstep).symm⟩

theorem step_fork {w w' : Tree} {pid child : Pid} (hstep : step w (.fork pid child) = some w') :
    ∃ p, w pid = some p ∧ w child = none ∧
      w' = Function.update w child (some (p.forked child)) := by
  obtain ⟨p, hp, hstep⟩ := Option.bind_eq_some_iff.mp hstep
  obtain ⟨hnew, hstep⟩ := Option.ite_none_left_eq_some.mp hstep
  refine ⟨p, hp, ?_, (Option.some.inj hstep).symm⟩
  simp only [Bool.or_eq_true, not_or] at hnew
  simpa using hnew.1

theorem step_treeInv {w w' : Tree} {a : Action} (h : TreeInv w) (hstep : step w a = some w') :
    TreeInv w' := by
  cases a with
  | event pid e =>
      obtain ⟨p, p', hp, hrun, rfl⟩ := step_event hstep
      obtain ⟨hgood, hknown⟩ := h pid p hp
      obtain ⟨hgood', hinherited⟩ := hgood.run hrun
      refine h.update hgood' ?_
      rw [hinherited]
      exact hknown
  | fork pid child =>
      obtain ⟨p, hp, hnew, rfl⟩ := step_fork hstep
      obtain ⟨hgood, hknown⟩ := h pid p hp
      have howner (d : DbId) (hd : (p.memory.databases d).db = true) :
          (w (p.memory.databases d).owner).isSome = true := by
        rcases (hgood.course d).owner hd with heq | ⟨hopened, heq⟩
        · rw [heq, hgood.pid, hp]
          rfl
        · rw [heq]
          exact hknown d hopened
      refine h.update (hgood.forked fun d hd heq => ?_) howner
      have hsome := howner d hd
      rw [heq, hnew] at hsome
      cases hsome

/-- With no collection in between, the hook leaves a child the memory that the atomic hook
leaves it. -/
theorem hook_refines_forked {p : Process} {pid child : Pid} (h : Good p pid)
    (hchild : ∀ d, (p.memory.databases d).db = true → (p.memory.databases d).owner ≠ child)
    {alive : DbId → Bool} (halive : ∀ d, alive d = true ↔ d ∉ p.dead) :
    ∃ p', Leads (p.forked child) p' ∧ p'.hook = some .cleared ∧
      forget p'.memory = forget (p.memory.forked child alive) := by
  have hgood := h.forked hchild
  obtain ⟨p', hleads, hcleared, hmemory⟩ := loop_leads p.memory.tracked
    (m := { p.memory with pid := child, calls := [] }) hgood.toInv rfl halive rfl
  refine ⟨p', hleads, hcleared, hmemory.trans ?_⟩
  have hrun := discardLoop_result alive p.memory.tracked { p.memory with pid := child, calls := [] }
  rw [Memory.forked, forkSafetyDiscard, RubyM.get_bind, RubyM.bind_run_ok () _ hrun]
  rfl

theorem treeInv_start (pid : Pid) : TreeInv (Tree.start pid) := by
  have hnone : TreeInv fun _ => none := fun _ _ hp => nomatch hp
  refine hnone.update ⟨⟨rfl, fun _ hd => (nomatch hd), fun d => ?_, fun d hd => ?_, fun d => ?_⟩,
    fun _ hhook => (nomatch hhook)⟩ fun _ hd => (nomatch hd)
  · exact .own rfl (fun hd => nomatch hd) fun _ hcall => absurd hcall List.not_mem_nil
  · exact hd.elim (fun hne => absurd rfl hne) fun hdb => nomatch hdb
  · exact ⟨fun hcollected => (nomatch hcollected), fun hdead => absurd hdead List.not_mem_nil⟩

/-- What a process does changes no other. -/
theorem step_other {w w' : Tree} {a : Action} (hstep : step w a = some w') {pid : Pid} {p : Process}
    (hp : w pid = some p) (hpid : a.pid ≠ pid) : w' pid = some p := by
  cases a with
  | event pid' e =>
      obtain ⟨_, _, _, _, rfl⟩ := step_event hstep
      exact (Function.update_of_ne (Ne.symm hpid) ..).trans hp
  | fork pid' child =>
      obtain ⟨_, _, hnew, rfl⟩ := step_fork hstep
      have hne : pid ≠ child := by
        rintro rfl
        cases hp.symm.trans hnew
      exact (Function.update_of_ne hne ..).trans hp

theorem exec_other {w w' : Tree} {as : List Action} {pid : Pid} {p : Process}
    (hp : w pid = some p) (hexec : StepSystem.exec step w as = some w')
    (hpid : ∀ a ∈ as, a.pid ≠ pid) : w' pid = some p := by
  induction as generalizing w with
  | nil => exact Option.some.inj hexec ▸ hp
  | cons a as ih =>
      obtain ⟨w'', hstep, hexec⟩ := (StepSystem.exec_cons_eq_some step).mp hexec
      have hp' := step_other hstep hp (hpid a List.mem_cons_self)
      exact ih hp' hexec fun b hb => hpid b (List.mem_cons_of_mem a hb)

/-- Over any run of a tree of processes: the owner alone closes a writable connection and any
other process discards it, the hook closes what is writable and leaves what is read-only, and
what the others do changes nothing of a process. -/
theorem ownership_respected (pid : Pid) (as : List Action) :
    StepSystem.AlwaysState step Respectful (Tree.start pid) as ∧
      ∀ (w w' : Tree) (bs : List Action) (pid' : Pid) (p : Process), w pid' = some p →
        StepSystem.exec step w bs = some w' → (∀ b ∈ bs, b.pid ≠ pid') → w' pid' = some p := by
  constructor
  · have hinv : StepSystem.AlwaysState step TreeInv (Tree.start pid) as :=
      StepSystem.alwaysState_of_invariant (fun _ _ _ h hstep => step_treeInv h hstep)
        (treeInv_start pid)
    exact hinv.mono fun w h pid' p hp => (h pid' p hp).1.respects
  · intro w w' bs pid' p hp hexec hpid
    exact exec_other hp hexec hpid

/-- The hook of a child closes the database that it is forked with. -/
example : (((StepSystem.exec step (Tree.start 1)
    ([.event 1 (.openDatabase 0 false), .event 1 (.track 0), .fork 1 2] ++
      List.replicate 6 (.event 2 .hook))).bind fun w => w 2).map fun p => (p.hook, p.calls 0)) =
    some (some .cleared, [.releaseFiles ⟨1, true, .opened, []⟩]) := rfl

end Sqlite3Ruby.Fork.Ownership
