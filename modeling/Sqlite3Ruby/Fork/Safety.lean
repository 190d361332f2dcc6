import Sqlite3Ruby.Fork.Memory
import Sqlite3Ruby.Lib.StepSystem

/-!
# Connections carried across a fork

A tree of processes, each with a copy of the memory it was forked with. A writable
connection must be run and torn down only by the process that opened it.

## Implementation notes

A process that exits drops and collects what it has. The identifiers of processes
are not used again.
-/

namespace Sqlite3Ruby.Fork

/-- The connection was opened writable in another process. -/
def Connection.isForeign (c : Connection) (pid : Pid) : Bool := c.opener ≠ pid && c.writable

/-- The calls that run or tear down a foreign connection. -/
def SqliteCall.offends (pid : Pid) : SqliteCall → Bool
  | step c => c.isForeign pid
  | backupStep dst src => dst.isForeign pid || src.isForeign pid
  | finalize c destroys => destroys && c.isForeign pid
  | backupFinish dst destroysDst src destroysSrc =>
      destroysDst && dst.isForeign pid || destroysSrc && src.isForeign pid
  | reset _ | bind _ | closeV2 _ | releaseFiles _ => false

/-- No call of the process was one that offends. -/
def NoOffence (m : Memory) : Prop := ∀ c ∈ m.calls, c.offends m.pid = false

/-- What a process does with its wrappers. -/
inductive Op
  | newDatabase (d : DbId) (readonly : Bool)
  | close (d : DbId)
  | dropDatabase (d : DbId)
  | collectDatabase (d : DbId)
  | prepare (s : StmtId) (d : DbId) (answer : PrepareAnswer)
  | statementStep (s : StmtId) (answer : StepAnswer)
  | resetBang (s : StmtId)
  | bindParam (s : StmtId)
  | statementClose (s : StmtId)
  | dropStatement (s : StmtId)
  | collectStatement (s : StmtId)
  | newBackup (b : BackupId) (dst src : DbId) (answer : Option (ErrorStatus × String))
  | backupStep (b : BackupId)
  | backupFinish (b : BackupId)
  | dropBackup (b : BackupId)
  | collectBackup (b : BackupId)

/-- The wrapper is one that the operation can be called on. A statement refers to
its database; a backup refers to none. -/
def Op.isEnabled (m : Memory) : Op → Bool
  | newDatabase d _ => (m.databases d).life = .free
  | close d => (m.databases d).life = .reachable
  | dropDatabase d =>
      (m.databases d).life = .reachable &&
        m.made.all fun s => (m.statements s).life ≠ .reachable || (m.statements s).database ≠ d
  | collectDatabase d => (m.databases d).life = .dropped
  | prepare s d _ => (m.statements s).life = .free && (m.databases d).life = .reachable
  | statementStep s _ | resetBang s | bindParam s | statementClose s | dropStatement s =>
      (m.statements s).life = .reachable
  | collectStatement s => (m.statements s).life = .dropped
  | newBackup b dst src _ =>
      (m.backups b).life = .free && (m.databases dst).life = .reachable &&
        (m.databases src).life = .reachable
  | backupStep b | backupFinish b | dropBackup b => (m.backups b).life = .reachable
  | collectBackup b => (m.backups b).life = .dropped

def Op.run : Op → MemoryM Unit
  | newDatabase d readonly => Fork.newDatabase d readonly
  | close d => closeOrDiscardDb d
  | dropDatabase d =>
      RubyM.modify fun m => m.setDatabase d { m.databases d with life := .dropped }
  | collectDatabase d => databaseDeallocate d
  | prepare s d answer => Fork.prepare s d answer
  | statementStep s answer => Fork.statementStep s answer
  | resetBang s => Fork.resetBang s
  | bindParam s => Fork.bindParam s
  | statementClose s => Fork.statementClose s
  | dropStatement s =>
      RubyM.modify fun m => m.setStatement s { m.statements s with life := .dropped }
  | collectStatement s => statementDeallocate s
  | newBackup b dst src answer => backupInitialize b dst src answer
  | backupStep b => Fork.backupStep b
  | backupFinish b => Fork.backupFinish b
  | dropBackup b =>
      RubyM.modify fun m => m.setBackup b { m.backups b with life := .dropped }
  | collectBackup b => backupDeallocate b

/-- The processes there are. -/
abbrev World := Pid → Option Memory

inductive Action
  | op (pid : Pid) (o : Op)
  | fork (pid child : Pid) (alive : DbId → Bool)

/-- One step of one process. A fork finds the weak references alive that `alive` says,
and those of everything reachable. -/
def step (w : World) : Action → Option World
  | .op pid o => do
      let m ← w pid
      if o.isEnabled m then some (Function.update w pid (some (o.run m).2)) else none
  | .fork pid child alive => do
      let m ← w pid
      if (w child).isSome then none
      else some (Function.update w child (some (m.forked child alive)))

/-- One process. -/
def World.start (pid : Pid) : World := Function.update (fun _ => none) pid (some (.start pid))

/-- No process has run or torn down a writable connection of another. -/
def ForkSafe (w : World) : Prop := ∀ pid m, w pid = some m → NoOffence m

/-- The condition on an operation of one process. -/
def Op.Meets (m : Memory) : Op → Prop
  | statementStep s _ =>
      let ctx := m.statements s
      let c := m.connections ctx.database
      ¬ (ctx.st = true ∧ ctx.doneP = false ∧ c.isForeign m.pid = true ∧ c.phase ≠ .opened)
  | statementClose s | collectStatement s =>
      let ctx := m.statements s
      let c := m.connections ctx.database
      ¬ (ctx.st = true ∧ c.isForeign m.pid = true ∧ c.isLast (.statement s) = true)
  | backupStep b =>
      let ctx := m.backups b
      ctx.p = true → (m.connections ctx.dst).isForeign m.pid = false ∧
        (m.connections ctx.src).isForeign m.pid = false
  | backupFinish b =>
      let ctx := m.backups b
      let dst := m.connections ctx.dst
      let src := m.connections ctx.src
      ctx.p = true → ¬ (dst.isForeign m.pid = true ∧ dst.isLast (.backup b) = true) ∧
        ¬ (src.isForeign m.pid = true ∧ src.isLast (.backup b) = true)
  | _ => True

/-- The step neither uses an inherited `Backup` of a writable connection, nor a
statement of an inherited writable connection that had been closed. -/
def Meets (w : World) : Action → Prop
  | .op pid o => ∀ m, w pid = some m → o.Meets m
  | .fork _ _ _ => True

/-! ## The invariant of a process -/

/-- The flags of a database tell what has become of its connection, and a statement
keeps its database within reach. -/
structure Sound (m : Memory) : Prop where
  opener : ∀ d, (m.connections d).opener = (m.databases d).owner
  writable : ∀ d, (m.connections d).writable = !(m.databases d).readonly
  closed : ∀ d, (m.databases d).life ≠ .free → (m.databases d).db = false →
    ((m.databases d).discarded = false ↔ (m.connections d).phase ≠ .opened)
  opened : ∀ d, (m.databases d).db = true →
    (m.databases d).discarded = false ∧ (m.connections d).phase = .opened
  made : ∀ s, (m.statements s).life = .reachable → s ∈ m.made
  statement : ∀ s, (m.statements s).life = .reachable →
    (m.databases (m.statements s).database).life = .reachable

/-- An open writable database within reach. -/
def Memory.isExposed (m : Memory) (d : DbId) : Prop :=
  (m.databases d).life = .reachable ∧ (m.databases d).db = true ∧
    (m.databases d).readonly = false

/-- The hook has left no writable connection of another process within reach, and
the next one will find what this process has opened. -/
structure Inv (m : Memory) : Prop extends Sound m where
  foreign : ∀ d, m.isExposed d → (m.databases d).owner = m.pid
  tracked : ∀ d, m.isExposed d → d ∈ m.tracked

theorem inv_start (pid : Pid) : Inv (.start pid) := by
  refine ⟨⟨?_, ?_, ?_, ?_, ?_, ?_⟩, ?_, ?_⟩ <;> simp [Memory.start, Memory.isExposed]

/-- The flags of a reachable database of another process tell a closed connection
from a discarded one. -/
theorem Inv.discarded_iff {m : Memory} (h : Inv m) {d : DbId}
    (hlife : (m.databases d).life = .reachable)
    (hforeign : (m.connections d).isForeign m.pid = true) :
    (m.databases d).discarded = false ↔ (m.connections d).phase ≠ .opened := by
  have hne : (m.databases d).owner ≠ m.pid := by
    rw [← h.opener d]
    simp only [Connection.isForeign, Bool.and_eq_true, decide_eq_true_eq] at hforeign
    exact hforeign.1
  have hreadonly : (m.databases d).readonly = false := by
    simp only [Connection.isForeign, Bool.and_eq_true, h.writable d] at hforeign
    simpa using hforeign.2
  have hdb : (m.databases d).db = false := by
    cases hdb : (m.databases d).db with
    | false => rfl
    | true => exact absurd (h.foreign d ⟨hlife, hdb, hreadonly⟩) hne
  exact h.closed d (by simp [hlife]) hdb

/-- What the statements and the backups do to a connection: it may be destroyed, once
it is closed. -/
def Connection.Same (c c' : Connection) : Prop :=
  c'.opener = c.opener ∧ c'.writable = c.writable ∧ (c'.phase = .opened ↔ c.phase = .opened)

theorem Connection.Same.refl (c : Connection) : c.Same c := ⟨rfl, rfl, Iff.rfl⟩

theorem Connection.hold_same (c : Connection) (h : Holder) : c.Same (c.hold h) :=
  ⟨rfl, rfl, Iff.rfl⟩

theorem Connection.release_same (c : Connection) (h : Holder) : c.Same (c.release h) := by
  refine ⟨rfl, rfl, ?_⟩
  change (if c.isLast h then Phase.destroyed else c.phase) = .opened ↔ _
  by_cases hlast : c.isLast h = true
  · have hzombie : c.phase = .zombie := by
      simp only [Connection.isLast, Bool.and_eq_true, decide_eq_true_eq] at hlast
      exact hlast.1
    simp [hlast, hzombie]
  · rw [if_neg hlast]

/-- The invariant is about the databases; the rest of the memory may change around
them as long as the reachable statements are known. -/
theorem Inv.of_databases {m m' : Memory} (h : Inv m) (hpid : m'.pid = m.pid)
    (hdatabases : m'.databases = m.databases) (htracked : m'.tracked = m.tracked)
    (hconnections : ∀ d, (m.connections d).Same (m'.connections d))
    (hmade : ∀ s, (m'.statements s).life = .reachable → s ∈ m'.made)
    (hstatement : ∀ s, (m'.statements s).life = .reachable →
      (m.databases (m'.statements s).database).life = .reachable) : Inv m' := by
  refine ⟨⟨?_, ?_, ?_, ?_, hmade, ?_⟩, ?_, ?_⟩
  · intro d
    rw [hdatabases, (hconnections d).1, h.opener d]
  · intro d
    rw [hdatabases, (hconnections d).2.1, h.writable d]
  · intro d
    rw [hdatabases]
    exact fun hlife hdb => (h.closed d hlife hdb).trans (not_congr (hconnections d).2.2).symm
  · intro d
    rw [hdatabases, (hconnections d).2.2]
    exact h.opened d
  · simpa only [hdatabases] using hstatement
  · simpa only [Memory.isExposed, hdatabases, hpid] using h.foreign
  · simpa only [Memory.isExposed, hdatabases, htracked] using h.tracked

theorem Inv.call {m : Memory} (h : Inv m) (c : SqliteCall) : Inv (m.call c) :=
  h.of_databases rfl rfl rfl (fun _ => Connection.Same.refl _) h.made h.statement

theorem Inv.setConnection {m : Memory} (h : Inv m) {d : DbId} {c : Connection}
    (hsame : (m.connections d).Same c) : Inv (m.setConnection d c) := by
  refine h.of_databases rfl rfl rfl ?_ h.made h.statement
  intro d'
  obtain rfl | hd := eq_or_ne d' d
  · simpa [Memory.setConnection] using hsame
  · simpa [Memory.setConnection, hd] using Connection.Same.refl _

/-- A statement stays with its database, and does not come back within reach. -/
theorem Inv.setStatement {m : Memory} (h : Inv m) {s : StmtId} {statement : Statement}
    (hlife : statement.life = .reachable → (m.statements s).life = .reachable)
    (hdatabase : statement.database = (m.statements s).database) :
    Inv (m.setStatement s statement) := by
  have hold (s' : StmtId) (hs' : ((m.setStatement s statement).statements s').life = .reachable) :
      (m.statements s').life = .reachable ∧
        ((m.setStatement s statement).statements s').database = (m.statements s').database := by
    obtain rfl | hs := eq_or_ne s' s
    · simp only [Memory.setStatement, Function.update_self] at hs' ⊢
      exact ⟨hlife hs', hdatabase⟩
    · simpa [Memory.setStatement, hs] using hs'
  refine h.of_databases rfl rfl rfl (fun _ => Connection.Same.refl _)
    (fun s' hs' => h.made s' (hold s' hs').1) ?_
  intro s' hs'
  rw [(hold s' hs').2]
  exact h.statement s' (hold s' hs').1

theorem Inv.newStatement {m : Memory} (h : Inv m) (s : StmtId) {d : DbId}
    (hd : (m.databases d).life = .reachable) (st : Bool) : Inv (m.newStatement s d st) := by
  refine h.of_databases rfl rfl rfl (fun _ => Connection.Same.refl _) ?_
    ?_
  · intro s' hs'
    by_cases hs : s' = s
    · exact hs ▸ List.mem_append_right _ (List.mem_singleton_self _)
    · simp only [Memory.newStatement, Memory.setStatement, Function.update_of_ne hs] at hs'
      exact List.mem_append_left _ (h.made s' hs')
  · intro s' hs'
    obtain rfl | hs := eq_or_ne s' s
    · simpa [Memory.newStatement, Memory.setStatement] using hd
    · simp only [Memory.newStatement, Memory.setStatement, Function.update_of_ne hs] at hs' ⊢
      exact h.statement s' hs'

theorem Inv.setBackup {m : Memory} (h : Inv m) (b : BackupId) (backup : Backup) :
    Inv (m.setBackup b backup) :=
  h.of_databases rfl rfl rfl (fun _ => Connection.Same.refl _) h.made h.statement

/-- What an operation has to do: keep the invariant, and offend only against the
condition. -/
structure Serves (m : Memory) (C : Prop) (m' : Memory) : Prop where
  inv : Inv m'
  pid : m'.pid = m.pid
  noOffence : NoOffence m' ↔ NoOffence m ∧ C

/-- The calls of an operation decide whether it offends. -/
theorem noOffence_append {m m' : Memory} (new : List SqliteCall) (hpid : m'.pid = m.pid)
    (hcalls : m'.calls = m.calls ++ new) :
    NoOffence m' ↔ NoOffence m ∧ ∀ c ∈ new, c.offends m.pid = false := by
  simp only [NoOffence, hcalls, hpid, List.mem_append]
  constructor
  · exact fun h => ⟨fun c hc => h c (Or.inl hc), fun c hc => h c (Or.inr hc)⟩
  · rintro ⟨hold, hnew⟩ c (hc | hc)
    · exact hold c hc
    · exact hnew c hc

/-- An operation that asks nothing of SQLite. -/
theorem Serves.silent {m m' : Memory} {C : Prop} (hinv : Inv m') (hpid : m'.pid = m.pid)
    (hcalls : m'.calls = m.calls) (hC : C) : Serves m C m' := by
  refine ⟨hinv, hpid, ?_⟩
  rw [noOffence_append [] hpid (by rw [hcalls, List.append_nil])]
  simp [hC]

theorem Serves.calls {m m' : Memory} {C : Prop} (new : List SqliteCall) (hinv : Inv m')
    (hpid : m'.pid = m.pid) (hcalls : m'.calls = m.calls ++ new)
    (hC : (∀ c ∈ new, c.offends m.pid = false) ↔ C) : Serves m C m' :=
  ⟨hinv, hpid, (noOffence_append new hpid hcalls).trans (and_congr_right fun _ => hC)⟩

/-! ## The operations of a statement -/

/-- The guard of a statement passes, or raises and changes nothing. -/
theorem requireLive_run (s : StmtId) (m : Memory) :
    (requireLive s m = (.ok (), m) ∧ (m.statements s).st = true ∧
        (m.databases (m.statements s).database).discarded = false) ∨
      ∃ e, requireLive s m = (.raise e, m) ∧
        ((m.statements s).st = false ∨
          (m.databases (m.statements s).database).discarded = true) := by
  rw [requireLive]
  rw [RubyM.get_bind]
  cases hdiscarded : (m.databases (m.statements s).database).discarded with
  | true => exact Or.inr ⟨_, rfl, Or.inr rfl⟩
  | false =>
      cases hst : (m.statements s).st with
      | true => exact Or.inl ⟨rfl, rfl, rfl⟩
      | false => exact Or.inr ⟨_, rfl, Or.inl rfl⟩

/-- A statement that passes its guard runs a foreign connection exactly when that
connection had been closed. -/
theorem Inv.step_meets_iff {m : Memory} (h : Inv m) {s : StmtId}
    (hs : (m.statements s).life = .reachable) (hst : (m.statements s).st = true)
    (hlive : (m.databases (m.statements s).database).discarded = false)
    (hdone : (m.statements s).doneP = false) (answer : StepAnswer) :
    (m.connections (m.statements s).database).isForeign m.pid = false ↔
      (Op.statementStep s answer).Meets m := by
  have hiff := h.discarded_iff (h.statement s hs)
  cases hforeign : (m.connections (m.statements s).database).isForeign m.pid with
  | false => simp [Op.Meets, hforeign]
  | true => simp [Op.Meets, hst, hdone, hforeign, (hiff hforeign).mp hlive]

theorem statementStep_serves {m : Memory} (h : Inv m) {s : StmtId}
    (hs : (m.statements s).life = .reachable) (answer : StepAnswer) :
    Serves m ((Op.statementStep s answer).Meets m) (statementStep s answer m).2 := by
  obtain ⟨hrun, hst, hlive⟩ | ⟨e, hrun, hdead⟩ := requireLive_run s m
  · rw [statementStep, RubyM.bind_run_ok () _ hrun, RubyM.get_bind]
    cases hdone : (m.statements s).doneP with
    | true => exact .silent h rfl rfl (by simp [Op.Meets, hdone])
    | false =>
        have hmeets := h.step_meets_iff hs hst hlive hdone answer
        let c := m.connections (m.statements s).database
        have hstep : (∀ call ∈ [SqliteCall.step c], call.offends m.pid = false) ↔
            (Op.statementStep s answer).Meets m := by
          simpa [SqliteCall.offends, c] using hmeets
        have hcalled := h.call (.step c)
        cases answer with
        | row => exact .calls [.step c] hcalled rfl rfl hstep
        | raised e => exact .calls [.step c] hcalled rfl rfl hstep
        | done =>
            refine .calls [.step c] (hcalled.setStatement ?_ ?_) rfl rfl hstep
            · exact fun _ => hs
            · rfl
        | error status errmsg =>
            refine .calls [.step c, .reset c] (hcalled.call (.reset c)) rfl ?_ ?_
            · simp [Memory.call, c]
            · simpa [SqliteCall.offends, c] using hmeets
  · rw [statementStep, RubyM.bind_run_raise _ hrun]
    refine .silent h rfl rfl ?_
    rintro ⟨hst, -, hforeign, hphase⟩
    have hlive := (h.discarded_iff (h.statement s hs) hforeign).mpr hphase
    simp [hst, hlive] at hdead

theorem resetBang_serves {m : Memory} (h : Inv m) {s : StmtId}
    (hs : (m.statements s).life = .reachable) : Serves m True (resetBang s m).2 := by
  obtain ⟨hrun, -⟩ | ⟨e, hrun, -⟩ := requireLive_run s m
  · rw [resetBang, RubyM.bind_run_ok () _ hrun]
    refine .calls [.reset (m.connections (m.statements s).database)]
      ((h.call _).setStatement ?_ ?_) rfl rfl ?_
    · exact fun _ => hs
    · rfl
    · simp [SqliteCall.offends]
  · rw [resetBang, RubyM.bind_run_raise _ hrun]
    exact .silent h rfl rfl trivial

theorem bindParam_serves {m : Memory} (h : Inv m) (s : StmtId) :
    Serves m True (bindParam s m).2 := by
  obtain ⟨hrun, -⟩ | ⟨e, hrun, -⟩ := requireLive_run s m
  · rw [bindParam, RubyM.bind_run_ok () _ hrun]
    refine .calls [.bind (m.connections (m.statements s).database)] (h.call _) rfl rfl ?_
    simp [SqliteCall.offends]
  · rw [bindParam, RubyM.bind_run_raise _ hrun]
    exact .silent h rfl rfl trivial

theorem prepare_serves {m : Memory} (h : Inv m) (s : StmtId) {d : DbId}
    (hd : (m.databases d).life = .reachable) (answer : PrepareAnswer) :
    Serves m True (prepare s d answer m).2 := by
  unfold prepare
  rw [RubyM.get_bind]
  split
  · cases answer with
    | prepared =>
        refine .silent ?_ rfl rfl trivial
        exact (h.setConnection ((m.connections d).hold_same (.statement s))).newStatement s hd true
    | noStatement => exact .silent (h.newStatement s hd false) rfl rfl trivial
    | error status errmsg => exact .silent h rfl rfl trivial
  · exact .silent h rfl rfl trivial

/-- A statement is finalized, and its wrapper has let go of it. -/
theorem finalize_serves {m : Memory} (h : Inv m) {s : StmtId} {statement : Statement}
    (hst : (m.statements s).st = true)
    (hlife : statement.life = .reachable → (m.statements s).life = .reachable)
    (hdatabase : statement.database = (m.statements s).database) :
    Serves m ((Op.statementClose s).Meets m)
      ((sqlite3Finalize s (m.statements s).database m).2.setStatement s statement) := by
  let c := m.connections (m.statements s).database
  have hreleased := h.setConnection (c.release_same (.statement s))
  refine .calls [.finalize c (c.isLast (.statement s))]
    ((hreleased.call _).setStatement hlife hdatabase) rfl rfl ?_
  simp only [Op.Meets, hst, true_and, List.forall_mem_singleton, SqliteCall.offends]
  rw [Bool.and_eq_false_iff, not_and_or, Bool.not_eq_true, Bool.not_eq_true]
  exact or_comm

theorem statementClose_serves {m : Memory} (h : Inv m) (s : StmtId) :
    Serves m ((Op.statementClose s).Meets m) (statementClose s m).2 := by
  rw [statementClose, RubyM.get_bind]
  cases hst : (m.statements s).st with
  | true =>
      rw [if_pos rfl]
      exact finalize_serves h hst id rfl
  | false => exact .silent h rfl rfl fun hmeets => by simp [hst] at hmeets

theorem statementDeallocate_serves {m : Memory} (h : Inv m) (s : StmtId) :
    Serves m ((Op.collectStatement s).Meets m) (statementDeallocate s m).2 := by
  have hlife : Life.collected = .reachable → (m.statements s).life = .reachable := by simp
  rw [statementDeallocate, RubyM.get_bind]
  cases hst : (m.statements s).st with
  | true =>
      rw [if_pos rfl]
      exact finalize_serves h hst hlife rfl
  | false =>
      refine .silent (h.setStatement hlife rfl) rfl rfl ?_
      exact fun hmeets => by simp [hst] at hmeets

/-! ## The operations of a backup -/

/-- A backup touches two connections in the same way. -/
theorem Inv.setBoth {m : Memory} (h : Inv m) (dst src : DbId) {f : Connection → Connection}
    (hf : ∀ c, Connection.Same c (f c)) :
    Inv ((m.setConnection dst (f (m.connections dst))).setConnection src
      (f (m.connections src))) := by
  refine h.of_databases rfl rfl rfl ?_ h.made h.statement
  intro d
  obtain rfl | hsrc := eq_or_ne d src
  · simpa [Memory.setConnection] using hf _
  · obtain rfl | hdst := eq_or_ne d dst
    · simpa [Memory.setConnection, hsrc] using hf _
    · simpa [Memory.setConnection, hsrc, hdst] using Connection.Same.refl _

theorem backupInitialize_serves {m : Memory} (h : Inv m) (b : BackupId) (dst src : DbId)
    (answer : Option (ErrorStatus × String)) :
    Serves m True (backupInitialize b dst src answer m).2 := by
  unfold backupInitialize
  rw [RubyM.get_bind]
  split
  · exact .silent h rfl rfl trivial
  · split
    · exact .silent h rfl rfl trivial
    · split
      · exact .silent h rfl rfl trivial
      · cases answer with
        | some refusal => exact .silent h rfl rfl trivial
        | none =>
            refine .silent ?_ rfl rfl trivial
            exact (h.setBoth dst src fun c => c.hold_same (.backup b)).setBackup b _

theorem backupStep_serves {m : Memory} (h : Inv m) (b : BackupId) :
    Serves m ((Op.backupStep b).Meets m) (backupStep b m).2 := by
  rw [backupStep, RubyM.get_bind]
  cases hp : (m.backups b).p with
  | true =>
      refine .calls [.backupStep (m.connections (m.backups b).dst)
        (m.connections (m.backups b).src)] (h.call _) rfl rfl ?_
      simp [Op.Meets, hp, SqliteCall.offends]
  | false => exact .silent h rfl rfl fun hmeets => by simp [hp] at hmeets

theorem backupFinish_serves {m : Memory} (h : Inv m) (b : BackupId) :
    Serves m ((Op.backupFinish b).Meets m) (backupFinish b m).2 := by
  rw [backupFinish, RubyM.get_bind]
  cases hp : (m.backups b).p with
  | true =>
      let cDst := m.connections (m.backups b).dst
      let cSrc := m.connections (m.backups b).src
      have hreleased := h.setBoth (m.backups b).dst (m.backups b).src
        fun c => c.release_same (.backup b)
      refine .calls [.backupFinish cDst (cDst.isLast (.backup b)) cSrc
        (cSrc.isLast (.backup b))] ((hreleased.call _).setBackup b _) rfl rfl ?_
      simp only [Op.Meets, hp, forall_const, List.forall_mem_singleton, SqliteCall.offends]
      rw [Bool.or_eq_false_iff, Bool.and_eq_false_iff, Bool.and_eq_false_iff]
      simp only [not_and_or, Bool.not_eq_true]
      exact and_congr or_comm or_comm
  | false => exact .silent h rfl rfl fun hmeets => by simp [hp] at hmeets

/-! ## The operations of a database -/

/-- Only one database changes, with its connection. -/
structure ChangesAt (d : DbId) (m m' : Memory) : Prop where
  pid : m'.pid = m.pid
  databases : ∀ d', d' ≠ d → m'.databases d' = m.databases d'
  connections : ∀ d', d' ≠ d → m'.connections d' = m.connections d'
  statements : m'.statements = m.statements
  made : m'.made = m.made

theorem Sound.changesAt {m m' : Memory} (h : Sound m) {d : DbId} (hm : ChangesAt d m m')
    (hopener : (m'.connections d).opener = (m'.databases d).owner)
    (hwritable : (m'.connections d).writable = !(m'.databases d).readonly)
    (hclosed : (m'.databases d).db = false →
      ((m'.databases d).discarded = false ↔ (m'.connections d).phase ≠ .opened))
    (hopened : (m'.databases d).db = true →
      (m'.databases d).discarded = false ∧ (m'.connections d).phase = .opened)
    (hlife : (m'.databases d).life = .reachable ∨
      ∀ s, (m.statements s).life = .reachable → (m.statements s).database ≠ d) : Sound m' := by
  constructor
  · intro d'
    by_cases hd : d' = d
    · exact hd ▸ hopener
    · rw [hm.databases d' hd, hm.connections d' hd, h.opener d']
  · intro d'
    by_cases hd : d' = d
    · exact hd ▸ hwritable
    · rw [hm.databases d' hd, hm.connections d' hd, h.writable d']
  · intro d'
    by_cases hd : d' = d
    · exact fun _ => hd ▸ hclosed
    · rw [hm.databases d' hd, hm.connections d' hd]
      exact h.closed d'
  · intro d'
    by_cases hd : d' = d
    · exact hd ▸ hopened
    · rw [hm.databases d' hd, hm.connections d' hd]
      exact h.opened d'
  · rw [hm.statements, hm.made]
    exact h.made
  · intro s hs
    rw [hm.statements] at hs ⊢
    by_cases hd : (m.statements s).database = d
    · rcases hlife with hlife | hnone
      · exact hd ▸ hlife
      · exact absurd hd (hnone s hs)
    · rw [hm.databases _ hd]
      exact h.statement s hs

theorem Inv.changesAt {m m' : Memory} (h : Inv m) {d : DbId} (hm : ChangesAt d m m')
    (hsound : Sound m') (htracked : ∀ d', d' ∈ m.tracked → d' ∈ m'.tracked)
    (hexposed : m'.isExposed d → (m'.databases d).owner = m.pid ∧ d ∈ m'.tracked) : Inv m' := by
  have hother (d' : DbId) (hd : d' ≠ d) (h' : m'.isExposed d') : m.isExposed d' := by
    rwa [Memory.isExposed, hm.databases d' hd] at h'
  refine ⟨hsound, ?_, ?_⟩
  · intro d' h'
    rw [hm.pid]
    obtain rfl | hd := eq_or_ne d' d
    · exact (hexposed h').1
    · rw [hm.databases d' hd]
      exact h.foreign d' (hother d' hd h')
  · intro d' h'
    obtain rfl | hd := eq_or_ne d' d
    · exact (hexposed h').2
    · exact htracked d' (h.tracked d' (hother d' hd h'))

/-- The memory after `close_or_discard_db`. -/
def Memory.closedOrDiscarded (m : Memory) (d : DbId) : Memory :=
  let ctx := m.databases d
  let c := m.connections d
  if ctx.db then
    if ctx.readonly || ctx.owner = m.pid then
      ((m.setConnection d c.closeV2).call (.closeV2 c)).setDatabase d { ctx with db := false }
    else (m.setDatabase d { ctx with db := false, discarded := true }).call (.releaseFiles c)
  else m

theorem closeOrDiscardDb_run (m : Memory) (d : DbId) :
    closeOrDiscardDb d m = (.ok (), m.closedOrDiscarded d) := by
  rw [closeOrDiscardDb, RubyM.get_bind, Memory.closedOrDiscarded]
  split
  · split
    · rfl
    · rfl
  · rfl

theorem Connection.closeV2_phase (c : Connection) : c.closeV2.phase ≠ .opened := by
  rw [closeV2]
  split <;> simp

/-- A database that stays where it is keeps its statements. -/
theorem Sound.life_cases {m : Memory} (h : Sound m) (d : DbId) :
    (m.databases d).life = .reachable ∨
      ∀ s, (m.statements s).life = .reachable → (m.statements s).database ≠ d := by
  by_cases hlife : (m.databases d).life = .reachable
  · exact Or.inl hlife
  · refine Or.inr fun s hs hd => hlife ?_
    exact hd ▸ h.statement s hs

/-- What closing leaves: the same memory but for a database that is closed, and calls
that offend nobody. -/
structure Closed (d : DbId) (m m' : Memory) : Prop where
  changes : ChangesAt d m m'
  sound : Sound m'
  db : (m'.databases d).db = false
  life : (m'.databases d).life = (m.databases d).life
  tracked : m'.tracked = m.tracked
  calls : ∃ new, m'.calls = m.calls ++ new ∧ ∀ c ∈ new, ∀ pid, c.offends pid = false

/-- A database that is no longer open, with the flag that tells why. -/
theorem Closed.of_update {m m' : Memory} (h : Sound m) {d : DbId} (discarded : Bool)
    (c : Connection) (call : SqliteCall)
    (hm : m' = ((m.setConnection d c).setDatabase d
      { m.databases d with db := false, discarded := discarded }).call call)
    (hopener : c.opener = (m.connections d).opener)
    (hwritable : c.writable = (m.connections d).writable)
    (hphase : discarded = false ↔ c.phase ≠ .opened)
    (hcall : ∀ pid, call.offends pid = false) : Closed d m m' := by
  subst hm
  have hchanges : ChangesAt d m (((m.setConnection d c).setDatabase d
      { m.databases d with db := false, discarded := discarded }).call call) :=
    ⟨rfl, fun _ hd => Function.update_of_ne hd .., fun _ hd => Function.update_of_ne hd .., rfl, rfl⟩
  have hdatabase : (((m.setConnection d c).setDatabase d
      { m.databases d with db := false, discarded := discarded }).call call).databases d =
        { m.databases d with db := false, discarded := discarded } := Function.update_self ..
  have hconnection : (((m.setConnection d c).setDatabase d
      { m.databases d with db := false, discarded := discarded }).call call).connections d = c :=
    Function.update_self ..
  refine ⟨hchanges, h.changesAt hchanges ?_ ?_ ?_ ?_ ?_, by rw [hdatabase], by rw [hdatabase], rfl,
    [call], rfl, by simpa using hcall⟩
  · rw [hdatabase, hconnection, hopener, h.opener d]
  · rw [hdatabase, hconnection, hwritable, h.writable d]
  · rw [hdatabase, hconnection]
    exact fun _ => hphase
  · rw [hdatabase]
    exact fun hfalse => absurd hfalse Bool.false_ne_true
  · rw [hdatabase]
    exact h.life_cases d

theorem closedOrDiscarded_closed {m : Memory} (h : Sound m) (d : DbId) :
    Closed d m (m.closedOrDiscarded d) := by
  cases hdb : (m.databases d).db with
  | false =>
      have hsame : m.closedOrDiscarded d = m := by simp [Memory.closedOrDiscarded, hdb]
      rw [hsame]
      exact ⟨⟨rfl, fun _ _ => rfl, fun _ _ => rfl, rfl, rfl⟩, h, hdb, rfl, rfl, [], by simp⟩
  | true =>
      obtain ⟨hlive, hopened⟩ := h.opened d hdb
      let c := m.connections d
      by_cases howned : ((m.databases d).readonly || (m.databases d).owner = m.pid) = true
      · refine .of_update h (m.databases d).discarded c.closeV2 (.closeV2 c) ?_ rfl rfl ?_
          fun _ => rfl
        · simp only [Memory.closedOrDiscarded, hdb, if_true, if_pos howned]
          rfl
        · exact iff_of_true hlive c.closeV2_phase
      · refine .of_update h true c (.releaseFiles c) ?_ rfl rfl ?_ fun _ => rfl
        · simp only [Memory.closedOrDiscarded, hdb, if_true, if_neg howned]
          simp [Memory.setConnection, Memory.setDatabase, Memory.call, c]
        · exact iff_of_false (by simp) fun hphase => hphase hopened

theorem Closed.serves {m m' : Memory} {d : DbId} (h : Inv m) (hclosed : Closed d m m') :
    Serves m True m' := by
  obtain ⟨new, hcalls, hnew⟩ := hclosed.calls
  refine .calls new (h.changesAt hclosed.changes hclosed.sound ?_ ?_) hclosed.changes.pid hcalls ?_
  · rw [hclosed.tracked]
    exact fun _ => id
  · rintro ⟨-, hdb, -⟩
    exact absurd (hclosed.db.symm.trans hdb) Bool.false_ne_true
  · exact iff_true_intro fun c hc => hnew c hc m.pid

/-- A wrapper that no statement needs leaves reach, or is collected. -/
theorem setLife_serves {m : Memory} (h : Inv m) {d : DbId} (life : Life)
    (hlife : life ≠ .reachable) (hfree : (m.databases d).life ≠ .free)
    (hnone : ∀ s, (m.statements s).life = .reachable → (m.statements s).database ≠ d) :
    Serves m True (m.setDatabase d { m.databases d with life := life }) := by
  have hchanges : ChangesAt d m (m.setDatabase d { m.databases d with life := life }) :=
    ⟨rfl, fun _ hd => Function.update_of_ne hd .., fun _ _ => rfl, rfl, rfl⟩
  have hdatabase : (m.setDatabase d { m.databases d with life := life }).databases d =
      { m.databases d with life := life } := Function.update_self ..
  refine .silent (h.changesAt hchanges (h.toSound.changesAt hchanges ?_ ?_ ?_ ?_ (Or.inr hnone))
    (fun _ => id) ?_) rfl rfl trivial
  · rw [hdatabase]
    exact h.opener d
  · rw [hdatabase]
    exact h.writable d
  · rw [hdatabase]
    exact h.closed d hfree
  · rw [hdatabase]
    exact h.opened d
  · rintro ⟨hreachable, -⟩
    rw [hdatabase] at hreachable
    exact absurd hreachable hlife

theorem databaseDeallocate_serves {m : Memory} (h : Inv m) {d : DbId}
    (hd : (m.databases d).life = .dropped) : Serves m True (databaseDeallocate d m).2 := by
  have hclosed := closedOrDiscarded_closed h.toSound d
  have hserves := hclosed.serves h
  have hlife : ((m.closedOrDiscarded d).databases d).life = .dropped := hclosed.life.trans hd
  have hnone := (hserves.inv.life_cases d).resolve_left (by simp [hlife])
  have hcollected := setLife_serves hserves.inv .collected (by simp) (by simp [hlife]) hnone
  rw [databaseDeallocate, RubyM.bind_run_ok () _ (closeOrDiscardDb_run m d)]
  exact ⟨hcollected.inv, hcollected.pid.trans hserves.pid,
    by simpa using hcollected.noOffence.trans (and_congr_left fun _ => hserves.noOffence)⟩

theorem newDatabase_serves {m : Memory} (h : Inv m) (d : DbId) (readonly : Bool) :
    Serves m True (newDatabase d readonly m).2 := by
  have hchanges : ChangesAt d m (newDatabase d readonly m).2 :=
    ⟨rfl, fun _ hd => Function.update_of_ne hd .., fun _ hd => Function.update_of_ne hd .., rfl, rfl⟩
  have hdatabase : (newDatabase d readonly m).2.databases d =
      ⟨true, m.pid, readonly, false, .reachable⟩ := Function.update_self ..
  have hconnection : (newDatabase d readonly m).2.connections d =
      ⟨m.pid, !readonly, .opened, []⟩ := Function.update_self ..
  refine .silent (h.changesAt hchanges (h.toSound.changesAt hchanges ?_ ?_ ?_ ?_ ?_)
    (fun _ => List.mem_append_left _) fun _ => ⟨?_, ?_⟩) rfl rfl trivial
  · rw [hdatabase, hconnection]
  · rw [hdatabase, hconnection]
  · simp [hdatabase]
  · rw [hdatabase, hconnection]
    exact fun _ => ⟨rfl, rfl⟩
  · exact Or.inl (by rw [hdatabase])
  · rw [hdatabase]
  · exact List.mem_append_right _ (List.mem_singleton_self d)

/-! ## The hook after a fork -/

/-- While the hook runs, what it still has to find is ahead of it. -/
structure Hooked (ds : List DbId) (m : Memory) : Prop extends Sound m where
  ahead : ∀ d, m.isExposed d → d ∈ ds
  harmless : ∀ c ∈ m.calls, ∀ pid, c.offends pid = false

/-- One round of the loop: the database at its head is closed, unless it is out of
reach, closed or read-only already. -/
theorem Hooked.round {m m' : Memory} {d : DbId} {ds : List DbId} (h : Hooked (d :: ds) m)
    (hclosed : Closed d m m') : Hooked ds m' := by
  refine ⟨hclosed.sound, ?_, ?_⟩
  · intro d' hd'
    have hne : d' ≠ d := by
      rintro rfl
      exact absurd (hclosed.db.symm.trans hd'.2.1) Bool.false_ne_true
    have hold : m.isExposed d' := by
      rwa [Memory.isExposed, hclosed.changes.databases d' hne] at hd'
    exact (List.mem_cons.mp (h.ahead d' hold)).resolve_left hne
  · intro c hc
    obtain ⟨new, hcalls, hnew⟩ := hclosed.calls
    rw [hcalls] at hc
    rcases List.mem_append.mp hc with hc | hc
    · exact h.harmless c hc
    · exact hnew c hc

/-- The loop leaves no writable database open within reach. -/
theorem discardLoop_run (alive : DbId → Bool) (ds : List DbId) {m : Memory} (h : Hooked ds m) :
    ∃ m', discardLoop alive ds m = (.ok (), m') ∧ Hooked [] m' ∧ m'.pid = m.pid := by
  induction ds generalizing m with
  | nil => exact ⟨m, rfl, h, rfl⟩
  | cons d ds ih =>
      rw [discardLoop, RubyM.get_bind]
      by_cases hfound : m.isInherited alive d = true
      · have hclosed := closedOrDiscarded_closed h.toSound d
        obtain ⟨m', hrun, hm', hpid⟩ := ih (h.round hclosed)
        refine ⟨m', ?_, hm', hpid.trans hclosed.changes.pid⟩
        rw [if_pos hfound, RubyM.bind_run_ok () _ (closeOrDiscardDb_run m d), hrun]
      · have hskipped : Hooked ds m := by
          refine ⟨h.toSound, ?_, h.harmless⟩
          intro d' hd'
          apply (List.mem_cons.mp (h.ahead d' hd')).resolve_left
          rintro rfl
          obtain ⟨hlife, hdb, hreadonly⟩ := hd'
          exact hfound (by simp [Memory.isInherited, hlife, hdb, hreadonly])
        rw [if_neg hfound]
        exact ih hskipped

/-- A child begins with the invariant and without an offence. -/
theorem forked_inv {m : Memory} (h : Inv m) (child : Pid) (alive : DbId → Bool) :
    Inv (m.forked child alive) ∧ (m.forked child alive).pid = child ∧
      NoOffence (m.forked child alive) := by
  have hsound : Sound { m with pid := child, calls := [] } :=
    ⟨h.opener, h.writable, h.closed, h.opened, h.made, h.statement⟩
  have hhooked : Hooked m.tracked { m with pid := child, calls := [] } :=
    ⟨hsound, h.tracked, by simp⟩
  obtain ⟨m', hrun, hm', hpid⟩ := discardLoop_run alive m.tracked hhooked
  have hforked : m.forked child alive = { m' with tracked := [] } := by
    rw [Memory.forked, forkSafetyDiscard, RubyM.get_bind, RubyM.bind_run_ok () _ hrun,
      RubyM.modify_run]
  have hnone (d : DbId) : ¬ m'.isExposed d := fun hd => absurd (hm'.ahead d hd) List.not_mem_nil
  rw [hforked]
  refine ⟨⟨⟨hm'.opener, hm'.writable, hm'.closed, hm'.opened, hm'.made, hm'.statement⟩,
    fun d hd => absurd hd (hnone d), fun d hd => absurd hd (hnone d)⟩, hpid, ?_⟩
  intro c hc
  exact hm'.harmless c hc _

/-! ## Runs -/

/-- Every operation keeps the invariant and offends exactly against its condition. -/
theorem op_serves {m : Memory} (h : Inv m) {o : Op} (ho : o.isEnabled m = true) :
    Serves m (o.Meets m) (o.run m).2 := by
  cases o with
  | newDatabase d readonly => exact newDatabase_serves h d readonly
  | close d =>
      rw [Op.run, closeOrDiscardDb_run]
      exact (closedOrDiscarded_closed h.toSound d).serves h
  | dropDatabase d =>
      simp only [Op.isEnabled, Bool.and_eq_true, decide_eq_true_eq, List.all_eq_true,
        Bool.or_eq_true] at ho
      obtain ⟨hd, hnone⟩ := ho
      apply setLife_serves h .dropped (by simp) (by simp [hd])
      intro s hs hsd
      have := hnone s (h.made s hs)
      simp [hs, hsd] at this
  | collectDatabase d => exact databaseDeallocate_serves h (of_decide_eq_true ho)
  | prepare s d answer =>
      simp only [Op.isEnabled, Bool.and_eq_true, decide_eq_true_eq] at ho
      exact prepare_serves h s ho.2 answer
  | statementStep s answer => exact statementStep_serves h (of_decide_eq_true ho) answer
  | resetBang s => exact resetBang_serves h (of_decide_eq_true ho)
  | bindParam s => exact bindParam_serves h s
  | statementClose s => exact statementClose_serves h s
  | dropStatement s => exact .silent (h.setStatement (by simp) rfl) rfl rfl trivial
  | collectStatement s => exact statementDeallocate_serves h s
  | newBackup b dst src answer => exact backupInitialize_serves h b dst src answer
  | backupStep b => exact backupStep_serves h b
  | backupFinish b => exact backupFinish_serves h b
  | dropBackup b => exact .silent (h.setBackup b _) rfl rfl trivial
  | collectBackup b => exact .silent (h.setBackup b _) rfl rfl trivial

/-- Each process has its own number and keeps the invariant. -/
def WorldInv (w : World) : Prop := ∀ pid m, w pid = some m → Inv m ∧ m.pid = pid

/-- What holds of all processes after one of them has changed or begun. -/
theorem forall_update_iff (P : Pid → Memory → Prop) (w : World) (pid : Pid) (m : Memory) :
    (∀ pid' m', Function.update w pid (some m) pid' = some m' → P pid' m') ↔
      P pid m ∧ ∀ pid', pid' ≠ pid → ∀ m', w pid' = some m' → P pid' m' := by
  rw [Function.forall_update_iff w fun pid' o => ∀ m', o = some m' → P pid' m']
  exact and_congr_left fun _ => ⟨fun h => h m rfl, fun h m' hm' => Option.some.inj hm' ▸ h⟩

theorem worldInv_update {w : World} (h : WorldInv w) {pid : Pid} {m : Memory} (hm : Inv m)
    (hpid : m.pid = pid) : WorldInv (Function.update w pid (some m)) := by
  apply (forall_update_iff (fun pid m => Inv m ∧ m.pid = pid) w pid m).mpr
  exact ⟨⟨hm, hpid⟩, fun pid' _ => h pid'⟩

theorem forkSafe_update {w : World} (h : ForkSafe w) (pid : Pid) (m : Memory) :
    ForkSafe (Function.update w pid (some m)) ↔ NoOffence m := by
  apply (forall_update_iff (fun _ m => NoOffence m) w pid m).trans
  exact and_iff_left fun pid' _ => h pid'

theorem worldInv_start (pid : Pid) : WorldInv (World.start pid) := by
  apply worldInv_update _ (inv_start pid) rfl
  intro pid' m hm
  cases hm

theorem forkSafe_start (pid : Pid) : ForkSafe (World.start pid) := by
  apply (forkSafe_update _ pid (.start pid)).mpr
  · intro c hc
    cases hc
  · intro pid' m hm
    cases hm

/-- One step keeps the invariant, and stays fork-safe exactly when it meets the
condition. -/
theorem step_serves {w w' : World} {a : Action} (h : WorldInv w) (hstep : step w a = some w') :
    WorldInv w' ∧ (ForkSafe w → (ForkSafe w' ↔ Meets w a)) := by
  cases a with
  | op pid o =>
      simp only [step, Option.bind_eq_bind, Option.bind_eq_some_iff,
        Option.ite_none_right_eq_some, Option.some.injEq] at hstep
      obtain ⟨m, hm, henabled, rfl⟩ := hstep
      obtain ⟨hinv, hpid⟩ := h pid m hm
      have hserves := op_serves hinv henabled
      refine ⟨worldInv_update h hserves.inv (hserves.pid.trans hpid), ?_⟩
      intro hsafe
      rw [forkSafe_update hsafe, hserves.noOffence, and_iff_right (hsafe pid m hm)]
      exact ⟨fun hmeets m' hm' => Option.some.inj (hm.symm.trans hm') ▸ hmeets,
        fun hmeets => hmeets m hm⟩
  | fork pid child alive =>
      simp only [step, Option.bind_eq_bind, Option.bind_eq_some_iff,
        Option.ite_none_left_eq_some, Option.some.injEq] at hstep
      obtain ⟨m, hm, -, rfl⟩ := hstep
      obtain ⟨hinv, hpid, hsafe'⟩ := forked_inv (h pid m hm).1 child alive
      refine ⟨worldInv_update h hinv hpid, ?_⟩
      intro hsafe
      rw [forkSafe_update hsafe]
      exact iff_of_true hsafe' trivial

/-- Over any run of a tree of processes: no process runs or tears down a writable
connection that another opened, exactly when every step meets the condition. -/
theorem fork_safe_iff (pid : Pid) (as : List Action) :
    StepSystem.AlwaysState step ForkSafe (World.start pid) as ↔
      StepSystem.AlwaysStep step Meets (World.start pid) as := by
  apply StepSystem.alwaysState_iff_alwaysStep _ _ (worldInv_start pid) (forkSafe_start pid)
  · intro w a w' h hstep
    exact (step_serves h hstep).1
  · intro w a w' h hsafe hstep
    exact (step_serves h hstep).2 hsafe

/-- A backup begun before a fork, used after it in the child. -/
def inheritedBackup : List Action :=
  [.op 1 (.newDatabase 0 false), .op 1 (.newDatabase 1 false), .op 1 (.newBackup 0 0 1 none),
    .fork 1 2 (fun _ => true), .op 2 (.backupStep 0)]

theorem inheritedBackup_offends :
    ∃ w m, StepSystem.exec step (World.start 1) inheritedBackup = some w ∧ w 2 = some m ∧
      m.calls.any (·.offends 2) = true ∧ ¬ ForkSafe w := by
  refine ⟨_, _, rfl, rfl, rfl, ?_⟩
  intro hsafe
  have hchild := hsafe 2 _ rfl
  revert hchild
  rw [NoOffence]
  decide

end Sqlite3Ruby.Fork
