import Mathlib.Logic.Function.Basic
import Sqlite3Ruby.Ruby.Exception

/-!
# The wrappers of one process and the connections under them

A `Database` closes or discards its connection by the process that opened it. A
`Statement` and a `Backup` hold native objects of their own, which keep a closed
connection alive as a zombie until the last of them is finalized.

## Implementation notes

Each `Database` is opened once, so a connection is known by the number of its
wrapper. `made` lists the statements of the process. `calls` is the record of
what it asks of SQLite, with the connection as it was before each call.
-/

namespace Sqlite3Ruby.Fork

abbrev Pid := Nat
abbrev DbId := Nat
abbrev StmtId := Nat
abbrev BackupId := Nat

/-- Where the object of a wrapper is: not made yet, reachable, out of reach, or
collected. -/
inductive Life
  | free
  | reachable
  | dropped
  | collected
  deriving DecidableEq

/-- A native object that keeps a connection alive. -/
inductive Holder
  | statement (s : StmtId)
  | backup (b : BackupId)
  deriving DecidableEq

inductive Phase
  | opened
  | zombie
  | destroyed
  deriving DecidableEq

/-- A connection, as SQLite has it. -/
structure Connection where
  opener : Pid
  writable : Bool
  phase : Phase
  holders : List Holder

/-- The context struct of a `Database`: whether `db` is set, `owner` and `flags`. -/
structure Database where
  db : Bool
  owner : Pid
  readonly : Bool
  discarded : Bool
  life : Life

/-- A `Statement`: whether `st` is set, its database, and `done_p`. -/
structure Statement where
  st : Bool
  database : DbId
  doneP : Bool
  life : Life

/-- A `Backup`: whether `p` is set, and what it copies. -/
structure Backup where
  p : Bool
  dst : DbId
  src : DbId
  life : Life

/-- A call of SQLite on a connection, and whether it destroys the connection. -/
inductive SqliteCall
  | step (c : Connection)
  | reset (c : Connection)
  | bind (c : Connection)
  | finalize (c : Connection) (destroys : Bool)
  | backupStep (dst src : Connection)
  | backupFinish (dst : Connection) (destroysDst : Bool) (src : Connection) (destroysSrc : Bool)
  | closeV2 (c : Connection)
  | releaseFiles (c : Connection)

/-- The memory of a process, and what it has asked of SQLite. -/
structure Memory where
  pid : Pid
  databases : DbId → Database
  connections : DbId → Connection
  statements : StmtId → Statement
  backups : BackupId → Backup
  made : List StmtId
  tracked : List DbId
  calls : List SqliteCall

namespace Memory

def setDatabase (m : Memory) (d : DbId) (database : Database) : Memory :=
  { m with databases := Function.update m.databases d database }

def setConnection (m : Memory) (d : DbId) (connection : Connection) : Memory :=
  { m with connections := Function.update m.connections d connection }

def setStatement (m : Memory) (s : StmtId) (statement : Statement) : Memory :=
  { m with statements := Function.update m.statements s statement }

def newStatement (m : Memory) (s : StmtId) (d : DbId) (st : Bool) : Memory :=
  { m.setStatement s ⟨st, d, false, .reachable⟩ with made := m.made ++ [s] }

def setBackup (m : Memory) (b : BackupId) (backup : Backup) : Memory :=
  { m with backups := Function.update m.backups b backup }

def call (m : Memory) (c : SqliteCall) : Memory := { m with calls := m.calls ++ [c] }

/-- Before anything is opened. -/
def start (pid : Pid) : Memory :=
  ⟨pid, fun _ => ⟨false, pid, true, false, .free⟩, fun _ => ⟨pid, false, .destroyed, []⟩,
    fun _ => ⟨false, 0, false, .free⟩, fun _ => ⟨false, 0, 0, .free⟩, [], [], []⟩

end Memory

abbrev MemoryM := RubyM Memory

/-! ## SQLite -/

namespace Connection

def hold (c : Connection) (h : Holder) : Connection := { c with holders := c.holders ++ [h] }

/-- The connection is a zombie and this is all that keeps it. -/
def isLast (c : Connection) (h : Holder) : Bool :=
  c.phase = .zombie && (c.holders.filter (· ≠ h)).isEmpty

/-- A native object is finalized. -/
def release (c : Connection) (h : Holder) : Connection :=
  { c with
    holders := c.holders.filter (· ≠ h)
    phase := if c.isLast h then .destroyed else c.phase }

/-- `sqlite3_close_v2`. -/
def closeV2 (c : Connection) : Connection :=
  { c with phase := if c.holders.isEmpty then .destroyed else .zombie }

end Connection

/-- `sqlite3_close_v2`. -/
def sqlite3CloseV2 (d : DbId) : MemoryM Unit :=
  RubyM.modify fun m =>
    (m.setConnection d (m.connections d).closeV2).call (.closeV2 (m.connections d))

/-- `sqlite3_finalize`. -/
def sqlite3Finalize (s : StmtId) (d : DbId) : MemoryM Unit :=
  RubyM.modify fun m =>
    let c := m.connections d
    (m.setConnection d (c.release (.statement s))).call (.finalize c (c.isLast (.statement s)))

/-- `sqlite3_backup_finish`. -/
def sqlite3BackupFinish (b : BackupId) (dst src : DbId) : MemoryM Unit :=
  RubyM.modify fun m =>
    let cDst := m.connections dst
    let cSrc := m.connections src
    ((m.setConnection dst (cDst.release (.backup b))).setConnection src
      (cSrc.release (.backup b))).call
        (.backupFinish cDst (cDst.isLast (.backup b)) cSrc (cSrc.isLast (.backup b)))

/-! ## `Database` -/

def raise {α : Type} (klass : ExceptionClass) (message : String) : MemoryM α :=
  RubyM.lift (.raise ⟨klass, message⟩)

/-- `discard_db`. -/
def discardDb (d : DbId) : MemoryM Unit :=
  RubyM.modify fun m =>
    (m.setDatabase d { m.databases d with db := false, discarded := true }).call
      (.releaseFiles (m.connections d))

/-- `close_or_discard_db`. -/
def closeOrDiscardDb (d : DbId) : MemoryM Unit := do
  let m ← RubyM.get
  let ctx := m.databases d
  if ctx.db then
    if ctx.readonly || ctx.owner = m.pid then do
      sqlite3CloseV2 d
      RubyM.modify fun m => m.setDatabase d { ctx with db := false }
    else discardDb d
  else pure ()

/-- `Database.new`, which tracks what it has opened. -/
def newDatabase (d : DbId) (readonly : Bool) : MemoryM Unit :=
  RubyM.modify fun m =>
    { (m.setDatabase d ⟨true, m.pid, readonly, false, .reachable⟩).setConnection d
        ⟨m.pid, !readonly, .opened, []⟩ with
      tracked := m.tracked ++ [d] }

/-- Collecting a `Database`. -/
def databaseDeallocate (d : DbId) : MemoryM Unit := do
  closeOrDiscardDb d
  RubyM.modify fun m => m.setDatabase d { m.databases d with life := .collected }

/-- The tracked databases that the hook still finds: their weak reference is alive,
they are not closed and not read-only. -/
def Memory.isInherited (m : Memory) (alive : DbId → Bool) (d : DbId) : Bool :=
  ((m.databases d).life = .reachable || (m.databases d).life = .dropped && alive d) &&
    (m.databases d).db && !(m.databases d).readonly

/-- The loop of `ForkSafety.discard`. -/
def discardLoop (alive : DbId → Bool) : List DbId → MemoryM Unit
  | [] => pure ()
  | d :: ds => do
      let m ← RubyM.get
      if m.isInherited alive d then do
        closeOrDiscardDb d
        discardLoop alive ds
      else discardLoop alive ds

/-- `ForkSafety.discard`. -/
def forkSafetyDiscard (alive : DbId → Bool) : MemoryM Unit := do
  let m ← RubyM.get
  discardLoop alive m.tracked
  RubyM.modify fun m => { m with tracked := [] }

/-- The memory of a child, once the hook of `Process._fork` has run in it. -/
def Memory.forked (m : Memory) (child : Pid) (alive : DbId → Bool) : Memory :=
  (forkSafetyDiscard alive { m with pid := child, calls := [] }).2

/-! ## `Statement` -/

/-- What `sqlite3_prepare_v2` makes of a text. -/
inductive PrepareAnswer
  | prepared
  | noStatement
  | error (status : ErrorStatus) (errmsg : String)

/-- `Statement.new`. -/
def prepare (s : StmtId) (d : DbId) (answer : PrepareAnswer) : MemoryM Unit := do
  let m ← RubyM.get
  if (m.databases d).db then
    match answer with
    | .prepared =>
        RubyM.modify fun m =>
          (m.setConnection d ((m.connections d).hold (.statement s))).newStatement s d true
    | .noStatement => RubyM.modify fun m => m.newStatement s d false
    | .error status errmsg => RubyM.lift (check status.1 errmsg)
  else raise .ArgumentError "prepare called on a closed database"

/-- `REQUIRE_LIVE_DB` and `REQUIRE_OPEN_STMT`. -/
def requireLive (s : StmtId) : MemoryM Unit := do
  let m ← RubyM.get
  if (m.databases (m.statements s).database).discarded then
    raise .SQLite3Exception "cannot use a statement associated with a discarded database"
  else if (m.statements s).st then pure ()
  else raise .SQLite3Exception "cannot use a closed statement"

/-- What `sqlite3_step` comes back with: an answer, or the exception of a callback. -/
inductive StepAnswer
  | row
  | done
  | error (status : ErrorStatus) (errmsg : String)
  | raised (e : RubyException)

/-- `Statement#step`. A statement that fails is reset. -/
def statementStep (s : StmtId) (answer : StepAnswer) : MemoryM Unit := do
  requireLive s
  let m ← RubyM.get
  let ctx := m.statements s
  if ctx.doneP then pure ()
  else do
    RubyM.modify fun m => m.call (.step (m.connections ctx.database))
    match answer with
    | .row => pure ()
    | .done => RubyM.modify fun m => m.setStatement s { ctx with doneP := true }
    | .error status errmsg => do
        RubyM.modify fun m => m.call (.reset (m.connections ctx.database))
        RubyM.lift (check status.1 errmsg)
    | .raised e => RubyM.lift (.raise e)

/-- `Statement#reset!`. -/
def resetBang (s : StmtId) : MemoryM Unit := do
  requireLive s
  RubyM.modify fun m =>
    (m.call (.reset (m.connections (m.statements s).database))).setStatement s
      { m.statements s with doneP := false }

/-- `Statement#bind_param`, as far as the connection is concerned. -/
def bindParam (s : StmtId) : MemoryM Unit := do
  requireLive s
  RubyM.modify fun m => m.call (.bind (m.connections (m.statements s).database))

/-- `Statement#close`. -/
def statementClose (s : StmtId) : MemoryM Unit := do
  let m ← RubyM.get
  let ctx := m.statements s
  if ctx.st then do
    sqlite3Finalize s ctx.database
    RubyM.modify fun m => m.setStatement s { ctx with st := false }
  else raise .SQLite3Exception "cannot use a closed statement"

/-- Collecting a `Statement`. -/
def statementDeallocate (s : StmtId) : MemoryM Unit := do
  let m ← RubyM.get
  let ctx := m.statements s
  if ctx.st then sqlite3Finalize s ctx.database else pure ()
  RubyM.modify fun m => m.setStatement s { ctx with st := false, life := .collected }

/-! ## `Backup` -/

/-- `Backup.new`. SQLite refuses to copy a database to itself. -/
def backupInitialize (b : BackupId) (dst src : DbId) (answer : Option (ErrorStatus × String)) :
    MemoryM Unit := do
  let m ← RubyM.get
  if !(m.databases src).db then raise .ArgumentError "cannot backup from a closed database"
  else if !(m.databases dst).db then raise .ArgumentError "cannot backup to a closed database"
  else if dst = src then
    RubyM.lift (check 1 "source and destination must be distinct")
  else
    match answer with
    | none =>
        RubyM.modify fun m =>
          ((m.setConnection dst ((m.connections dst).hold (.backup b))).setConnection src
            ((m.connections src).hold (.backup b))).setBackup b ⟨true, dst, src, .reachable⟩
    | some (status, errmsg) => RubyM.lift (check status.1 errmsg)

/-- `Backup#step`. -/
def backupStep (b : BackupId) : MemoryM Unit := do
  let m ← RubyM.get
  let ctx := m.backups b
  if ctx.p then
    RubyM.modify fun m => m.call (.backupStep (m.connections ctx.dst) (m.connections ctx.src))
  else raise .SQLite3Exception "cannot use a closed backup"

/-- `Backup#finish`. -/
def backupFinish (b : BackupId) : MemoryM Unit := do
  let m ← RubyM.get
  let ctx := m.backups b
  if ctx.p then do
    sqlite3BackupFinish b ctx.dst ctx.src
    RubyM.modify fun m => m.setBackup b { ctx with p := false }
  else raise .SQLite3Exception "cannot use a closed backup"

/-- Collecting a `Backup` frees the struct alone; its native object stays. -/
def backupDeallocate (b : BackupId) : MemoryM Unit :=
  RubyM.modify fun m => m.setBackup b { m.backups b with life := .collected }

end Sqlite3Ruby.Fork
