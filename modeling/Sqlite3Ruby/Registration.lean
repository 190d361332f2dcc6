import Sqlite3Ruby.Aggregator.Runs

/-!
# Registering callbacks, and what keeps their objects alive

SQLite holds the addresses of Ruby objects in its tables of functions and
collations and in its aggregate contexts, and its hooks read the handlers in the
context struct. `database_mark` marks what the struct refers to.

## Implementation notes

Each registration carries SQLite's answer. A refused one leaves SQLite's tables
as they were. SQLite finds functions by name and arity, where each of these is
registered for one text encoding, and collations by name, and names regardless of
case.
-/

namespace Sqlite3Ruby.Registration

/-- A block, a comparator or a handler. -/
abbrev ObjectId := Nat

/-- The Ruby objects that SQLite can come to hold. -/
inductive Object
  | user (o : ObjectId)
  | wrapper (aw : Aggregator.WrapperId)
  | aggregatorInstance (i : Aggregator.InstanceId)
  deriving DecidableEq

/-- A string as a key of a Ruby hash: its bytes, and which encodings it can be
compared in. -/
structure Key where
  bytes : List UInt8
  comparable : Nat
  deriving DecidableEq

/-- The upper-case letters of ASCII are the lower-case ones to SQLite. -/
def foldCase (byte : UInt8) : UInt8 :=
  if 65 ≤ byte ∧ byte ≤ 90 then byte + 32 else byte

/-- The name SQLite reads: up to the first NUL, without its case. -/
def sqliteName (bytes : List UInt8) : List UInt8 :=
  (bytes.takeWhile (· ≠ 0)).map foldCase

structure FunctionKey where
  name : List UInt8
  arity : Int
  deriving DecidableEq

/-- What `sqlite3_create_function` was given. -/
inductive UserData
  | scalar (block : ObjectId)
  | aggregate (aw : Aggregator.WrapperId)
  deriving DecidableEq

/-- SQLite's side of a connection. -/
structure Sqlite where
  functions : FunctionKey → Option UserData
  collations : List UInt8 → Option ObjectId
  busyHook : Bool
  traceHook : Bool
  authHook : Bool

def Sqlite.empty : Sqlite := ⟨fun _ => none, fun _ => none, false, false, false⟩

def Sqlite.setFunction (s : Sqlite) (key : FunctionKey) (userData : UserData) : Sqlite :=
  { s with functions := Function.update s.functions key (some userData) }

/-- A collation is removed with a null comparator. -/
def Sqlite.setCollation (s : Sqlite) (name : List UInt8) (comparator : Option ObjectId) : Sqlite :=
  { s with collations := Function.update s.collations name comparator }

/-- A Ruby array or hash, and whether the context struct refers to it. -/
structure Container (α : Type) where
  contents : List α
  referred : Bool

/-- What is pinned through the context struct. -/
def Container.pinned {α : Type} (c : Container α) : List α :=
  if c.referred then c.contents else []

/-- `rb_ary_push`, and the write of the array to the context struct. -/
def Container.push {α : Type} (c : Container α) (a : α) : Container α := ⟨c.contents ++ [a], true⟩

/-- A database object: its context struct, its containers and SQLite's side. -/
structure Database where
  isOpen : Bool
  busyHandler : Option ObjectId
  traceHandler : Option ObjectId
  authorizer : Option ObjectId
  functions : Container ObjectId
  collations : Container (Key × Option ObjectId)
  aggregators : Container Aggregator.WrapperId
  nextWrapper : Aggregator.WrapperId
  aggregates : Aggregator.System
  sqlite : Sqlite

/-- After `initialize`. -/
def Database.new : Database :=
  ⟨true, none, none, none, ⟨[], false⟩, ⟨[], false⟩, ⟨[], false⟩, 0, Aggregator.initial, .empty⟩

/-- `database_mark`. -/
def databaseMark (db : Database) : List Object :=
  (db.busyHandler.toList ++ db.traceHandler.toList ++ db.authorizer.toList).map .user ++
    db.functions.pinned.map .user ++
    (db.collations.pinned.filterMap (·.2)).map .user ++
    db.aggregators.pinned.map .wrapper ++
    (db.aggregators.pinned.flatMap db.aggregates.mem.instances).map .aggregatorInstance

abbrev DatabaseM := RubyM Database

/-- SQLite's answer to a registration. -/
inductive Answer
  | ok
  | error (status : ErrorStatus) (errmsg : String)

/-- `CHECK`. -/
def Answer.check : Answer → Outcome Unit
  | ok => .ok ()
  | error status errmsg => Sqlite3Ruby.check status.1 errmsg

/-- `REQUIRE_OPEN_DB`. -/
def requireOpenDb : DatabaseM Unit := do
  let db ← RubyM.get
  if db.isOpen then pure ()
  else RubyM.lift (.raise ⟨.SQLite3Exception, "cannot use a closed database"⟩)

/-- A call that changes SQLite's side unless SQLite refuses, under `CHECK`. -/
def checkSqlite (answer : Answer) (change : Sqlite → Sqlite) : DatabaseM Unit := do
  match answer with
  | .ok => RubyM.modify fun db => { db with sqlite := change db.sqlite }
  | .error _ _ => pure ()
  RubyM.lift answer.check

/-- `define_function_with_flags`. -/
def defineFunctionWithFlags (name : List UInt8) (flags : Value) (block : ObjectId) (arity : Int)
    (answer : Answer) : DatabaseM Unit := do
  requireOpenDb
  let _ ← RubyM.lift (num2int flags)
  checkSqlite answer (·.setFunction ⟨sqliteName name, arity⟩ (.scalar block))
  RubyM.modify fun db => { db with functions := db.functions.push block }

/-- `define_function`. -/
def defineFunction (name : List UInt8) (block : ObjectId) (arity : Int) (answer : Answer) :
    DatabaseM Unit :=
  defineFunctionWithFlags name (.integer 1) block arity answer

/-- `create_function` registers a block of its own around the user's, which takes
any number of arguments. -/
def createFunction (name : List UInt8) (textRep : Value) (block : ObjectId) (answer : Answer) :
    DatabaseM Unit :=
  defineFunctionWithFlags name textRep block (-1) answer

/-- The arity of an aggregator, if it responds to `arity`. -/
def aggregatorArity (arity : Option (Outcome Value)) : Outcome Int :=
  match arity with
  | some rubyArity => do
      let rubyArity ← rubyArity
      num2int rubyArity
  | none => .ok (-1)

/-- `rb_sqlite3_define_aggregator2`. The message names the database as `to_s` does. -/
def defineAggregator2 (toS : String) (name : List UInt8) (arity : Option (Outcome Value))
    (answer : Answer) : DatabaseM Unit := do
  requireOpenDb
  let arity ← RubyM.lift (aggregatorArity arity)
  if arity < -1 ∨ 127 < arity then
    RubyM.lift (.raise ⟨.ArgumentError,
      toS ++ " arity=" ++ toString arity ++ " out of range -1..127"⟩)
  else do
    let db ← RubyM.get
    let aw := db.nextWrapper
    RubyM.modify fun db => { db with nextWrapper := aw + 1 }
    if 0 ∈ name then
      RubyM.lift (.raise ⟨.ArgumentError, "string contains null byte"⟩)
    else do
      checkSqlite answer (·.setFunction ⟨sqliteName name, arity⟩ (.aggregate aw))
      RubyM.modify fun db => { db with aggregators := db.aggregators.push aw }

/-- `collation`. -/
def collation (name : Key) (comparator : Option ObjectId) (answer : Answer) : DatabaseM Unit := do
  requireOpenDb
  checkSqlite answer (·.setCollation (sqliteName name.bytes) comparator)
  RubyM.modify fun db =>
    { db with collations := ⟨hashAset db.collations.contents name comparator, true⟩ }

/-- `trace`. -/
def trace (block : Option ObjectId) : DatabaseM Unit := do
  requireOpenDb
  RubyM.modify fun db =>
    { db with traceHandler := block, sqlite := { db.sqlite with traceHook := block.isSome } }

/-- `busy_handler`. The handler is written before SQLite is asked. -/
def busyHandler (block : Option ObjectId) (answer : Answer) : DatabaseM Unit := do
  requireOpenDb
  RubyM.modify fun db => { db with busyHandler := block }
  checkSqlite answer fun s => { s with busyHook := block.isSome }

/-- `busy_timeout=`. SQLite's own handler takes the place of the hook. -/
def setBusyTimeout (timeout : Value) (answer : Answer) : DatabaseM Unit := do
  requireOpenDb
  let _ ← RubyM.lift (num2int timeout)
  checkSqlite answer fun s => { s with busyHook := false }

/-- `authorizer=`. The handler is written after SQLite is asked. -/
def setAuthorizer (authorizer : Option ObjectId) (answer : Answer) : DatabaseM Unit := do
  requireOpenDb
  checkSqlite answer fun s => { s with authHook := authorizer.isSome }
  RubyM.modify fun db => { db with authorizer := authorizer }

/-- `close`. SQLite keeps its side when statements are open, and when the
connection is discarded. -/
def close (keeps : Bool) : DatabaseM Unit :=
  RubyM.modify fun db =>
    { db with
      isOpen := false
      sqlite := if db.isOpen && !keeps then .empty else db.sqlite }

/-- A call of one of the methods. -/
inductive Call
  | defineFunction (name : List UInt8) (block : ObjectId) (arity : Int) (answer : Answer)
  | defineFunctionWithFlags (name : List UInt8) (flags : Value) (block : ObjectId) (arity : Int)
      (answer : Answer)
  | createFunction (name : List UInt8) (textRep : Value) (block : ObjectId) (answer : Answer)
  | defineAggregator2 (toS : String) (name : List UInt8) (arity : Option (Outcome Value))
      (answer : Answer)
  | collation (name : Key) (comparator : Option ObjectId) (answer : Answer)
  | trace (block : Option ObjectId)
  | busyHandler (block : Option ObjectId) (answer : Answer)
  | setBusyTimeout (timeout : Value) (answer : Answer)
  | setAuthorizer (authorizer : Option ObjectId) (answer : Answer)
  | close (keeps : Bool)

def Call.run : Call → DatabaseM Unit
  | defineFunction name block arity answer => Registration.defineFunction name block arity answer
  | defineFunctionWithFlags name flags block arity answer =>
      Registration.defineFunctionWithFlags name flags block arity answer
  | createFunction name textRep block answer =>
      Registration.createFunction name textRep block answer
  | defineAggregator2 toS name arity answer => Registration.defineAggregator2 toS name arity answer
  | collation name comparator answer => Registration.collation name comparator answer
  | trace block => Registration.trace block
  | busyHandler block answer => Registration.busyHandler block answer
  | setBusyTimeout timeout answer => Registration.setBusyTimeout timeout answer
  | setAuthorizer authorizer answer => Registration.setAuthorizer authorizer answer
  | close keeps => Registration.close keeps

/-- A call, returning or raising, or a callback of an aggregate function. -/
inductive Action
  | call (c : Call)
  | aggregate (key : FunctionKey) (ctx : Aggregator.Context) (event : Aggregator.GroupEvent)

/-- SQLite calls back a context that has started, and starts one for a function in
its table. -/
def step (long : SizeofLong) (db : Database) : Action → Option Database
  | .call c => some (c.run db).2
  | .aggregate key ctx event =>
      if ctx ∈ db.aggregates.live ∨ db.sqlite.functions key = some (.aggregate ctx.aw) then
        (Aggregator.step long db.aggregates (ctx, event)).map fun aggregates =>
          { db with aggregates := aggregates }
      else none

/-! ## What SQLite holds -/

/-- The objects whose address SQLite holds or reads in the context struct. -/
inductive Held (db : Database) : Object → Prop
  | block {key : FunctionKey} {block : ObjectId}
      (h : db.sqlite.functions key = some (.scalar block)) : Held db (.user block)
  | wrapper {key : FunctionKey} {aw : Aggregator.WrapperId}
      (h : db.sqlite.functions key = some (.aggregate aw)) : Held db (.wrapper aw)
  | runningWrapper {ctx : Aggregator.Context} (h : ctx ∈ db.aggregates.live) :
      Held db (.wrapper ctx.aw)
  | aggregatorInstance {ctx : Aggregator.Context} {i : Aggregator.InstanceId}
      (h : db.aggregates.mem.slot ctx = .inst i) : Held db (.aggregatorInstance i)
  | comparator {name : List UInt8} {o : ObjectId} (h : db.sqlite.collations name = some o) :
      Held db (.user o)
  | busyHandler {o : ObjectId} (hook : db.sqlite.busyHook = true) (h : db.busyHandler = some o) :
      Held db (.user o)
  | traceHandler {o : ObjectId} (hook : db.sqlite.traceHook = true)
      (h : db.traceHandler = some o) : Held db (.user o)
  | authorizer {o : ObjectId} (hook : db.sqlite.authHook = true) (h : db.authorizer = some o) :
      Held db (.user o)

/-- `database_mark` marks everything SQLite can call back into. -/
def Pinned (db : Database) : Prop := ∀ o, Held db o → o ∈ databaseMark db

/-- Each entry of SQLite's tables has its object in the container for it. A
comparator is there under a key that SQLite takes for the same name. -/
structure Inv (db : Database) : Prop where
  scalar : ∀ key block, db.sqlite.functions key = some (.scalar block) →
    block ∈ db.functions.pinned
  aggregate : ∀ key aw, db.sqlite.functions key = some (.aggregate aw) →
    aw ∈ db.aggregators.pinned
  comparator : ∀ name o, db.sqlite.collations name = some o →
    ∃ key, sqliteName key.bytes = name ∧ (key, some o) ∈ db.collations.pinned
  context : ∀ ctx i, db.aggregates.mem.slot ctx = .inst i → ctx.aw ∈ db.aggregators.pinned
  aggregates : Aggregator.Inv db.aggregates

/-- A live context has its instance in its slot. -/
theorem Inv.live_pinned {db : Database} (h : Inv db) {ctx : Aggregator.Context}
    (hlive : ctx ∈ db.aggregates.live) : ctx.aw ∈ db.aggregators.pinned := by
  obtain ⟨hfinished, hstarted⟩ := (h.aggregates.mem_live ctx).mp hlive
  have hslot := h.aggregates.slot ctx hfinished
  cases hctx : db.aggregates.mem.slot ctx with
  | inst i => exact h.context ctx i hctx
  | qfalse => exact absurd hctx hstarted
  | null => simp [hctx, Aggregator.Slot.isLive] at hslot
  | qnil => simp [hctx, Aggregator.Slot.isLive] at hslot

theorem Inv.pinned {db : Database} (h : Inv db) : Pinned db := by
  intro o ho
  simp only [databaseMark, List.mem_append, List.mem_map, List.mem_filterMap, List.mem_flatMap]
  cases ho with
  | @block key block hkey => simp [h.scalar key block hkey]
  | @wrapper key aw hkey => simp [h.aggregate key aw hkey]
  | @runningWrapper ctx hlive => simp [h.live_pinned hlive]
  | @aggregatorInstance ctx i hslot =>
      have haw := h.context ctx i hslot
      have hi := h.aggregates.mem.pinned ctx i hslot
      exact Or.inr ⟨i, ⟨ctx.aw, haw, hi⟩, rfl⟩
  | @comparator name o hname =>
      obtain ⟨key, -, hkey⟩ := h.comparator name o hname
      have hvalue : ∃ o', (∃ e ∈ db.collations.pinned, e.2 = some o') ∧ Object.user o' = .user o :=
        ⟨o, ⟨(key, some o), hkey, rfl⟩, rfl⟩
      exact Or.inl (Or.inl (Or.inr hvalue))
  | busyHandler _ hhandler => simp [hhandler]
  | traceHandler _ hhandler => simp [hhandler]
  | authorizer _ hhandler => simp [hhandler]

/-! ## The containers -/

theorem Container.mem_push {α : Type} (c : Container α) (a : α) : a ∈ (c.push a).pinned :=
  List.mem_append_right _ (List.mem_singleton_self a)

theorem Container.pinned_subset {α : Type} (c : Container α) : c.pinned ⊆ c.contents := by
  rw [Container.pinned]
  split
  · exact List.Subset.refl _
  · exact List.nil_subset _

theorem Container.mem_push_of_mem {α : Type} {c : Container α} {a : α} (b : α)
    (h : a ∈ c.pinned) : a ∈ (c.push b).pinned :=
  List.mem_append_left _ (c.pinned_subset h)

theorem mem_hashAset_self {α β : Type} [DecidableEq α] (hash : List (α × β)) (key : α)
    (value : β) : (key, value) ∈ hashAset hash key value := by
  rw [hashAset]
  split
  next h =>
    obtain ⟨e, he, hkey⟩ := List.any_eq_true.mp h
    exact List.mem_map.mpr ⟨e, he, if_pos (of_decide_eq_true hkey)⟩
  next => exact List.mem_append_right _ (List.mem_singleton_self _)

/-- The other keys keep their values. -/
theorem mem_hashAset_of_ne {α β : Type} [DecidableEq α] {hash : List (α × β)} {key : α}
    (value : β) {e : α × β} (he : e ∈ hash) (hne : e.1 ≠ key) : e ∈ hashAset hash key value := by
  rw [hashAset]
  split
  · exact List.mem_map.mpr ⟨e, he, if_neg hne⟩
  · exact List.mem_append_left _ he

/-! ## The registrations -/

/-- An entry of SQLite's table of functions is the new one or an old one. -/
theorem setFunction_eq_some {sqlite : Sqlite} {key key' : FunctionKey} {userData found : UserData}
    (h : (sqlite.setFunction key userData).functions key' = some found) :
    found = userData ∨ sqlite.functions key' = some found := by
  change Function.update sqlite.functions key (some userData) key' = some found at h
  obtain rfl | hkey := eq_or_ne key' key
  · rw [Function.update_self] at h
    exact Or.inl (Option.some.inj h).symm
  · rw [Function.update_of_ne hkey] at h
    exact Or.inr h

/-- A function that SQLite has taken, with its block in the array. -/
theorem Inv.setScalar {db : Database} (h : Inv db) (key : FunctionKey) (block : ObjectId) :
    Inv { db with
      sqlite := db.sqlite.setFunction key (.scalar block)
      functions := db.functions.push block } where
  scalar key' block' hkey' := by
    rcases setFunction_eq_some hkey' with hnew | hold
    · cases hnew
      exact db.functions.mem_push block
    · exact Container.mem_push_of_mem block (h.scalar key' block' hold)
  aggregate key' aw hkey' := by
    rcases setFunction_eq_some hkey' with hnew | hold
    · cases hnew
    · exact h.aggregate key' aw hold
  comparator := h.comparator
  context := h.context
  aggregates := h.aggregates

/-- An aggregator that SQLite has taken, with its wrapper in the array. -/
theorem Inv.setAggregate {db : Database} (h : Inv db) (key : FunctionKey)
    (aw : Aggregator.WrapperId) :
    Inv { db with
      sqlite := db.sqlite.setFunction key (.aggregate aw)
      aggregators := db.aggregators.push aw } where
  scalar key' block hkey' := by
    rcases setFunction_eq_some hkey' with hnew | hold
    · cases hnew
    · exact h.scalar key' block hold
  aggregate key' aw' hkey' := by
    rcases setFunction_eq_some hkey' with hnew | hold
    · cases hnew
      exact db.aggregators.mem_push aw
    · exact Container.mem_push_of_mem aw (h.aggregate key' aw' hold)
  comparator := h.comparator
  context ctx i hslot := Container.mem_push_of_mem aw (h.context ctx i hslot)
  aggregates := h.aggregates

/-- A collation that SQLite has taken or removed. The key that is overwritten in the
hash is one for the same name; no other name loses its comparator. -/
theorem Inv.setCollation {db : Database} (h : Inv db) (key : Key) (comparator : Option ObjectId) :
    Inv { db with
      sqlite := db.sqlite.setCollation (sqliteName key.bytes) comparator
      collations := ⟨hashAset db.collations.contents key comparator, true⟩ } where
  scalar := h.scalar
  aggregate := h.aggregate
  comparator name o hname := by
    obtain rfl | hsame := eq_or_ne name (sqliteName key.bytes)
    · simp only [Sqlite.setCollation, Function.update_self] at hname
      exact ⟨key, rfl, hname ▸ mem_hashAset_self _ key comparator⟩
    · simp only [Sqlite.setCollation, Function.update_of_ne hsame] at hname
      obtain ⟨key', hkey', hmem⟩ := h.comparator name o hname
      have hne : key' ≠ key := by
        rintro rfl
        exact hsame hkey'.symm
      have hold := db.collations.pinned_subset hmem
      exact ⟨key', hkey', mem_hashAset_of_ne comparator hold hne⟩
  context := h.context
  aggregates := h.aggregates

/-- The handlers, the hooks and the counter of wrappers are in no container. -/
theorem Inv.of_tables {db db' : Database} (h : Inv db)
    (hfunctions : db'.functions = db.functions) (hcollations : db'.collations = db.collations)
    (haggregators : db'.aggregators = db.aggregators) (haggregates : db'.aggregates = db.aggregates)
    (hsqliteFunctions : db'.sqlite.functions = db.sqlite.functions)
    (hsqliteCollations : db'.sqlite.collations = db.sqlite.collations) : Inv db' := by
  constructor
  · simpa only [hsqliteFunctions, hfunctions] using h.scalar
  · simpa only [hsqliteFunctions, haggregators] using h.aggregate
  · simpa only [hsqliteCollations, hcollations] using h.comparator
  · simpa only [haggregates, haggregators] using h.context
  · simpa only [haggregates] using h.aggregates

/-- Once SQLite's side is gone, only the slots are left. -/
theorem Inv.closed {db : Database} (h : Inv db) (keeps : Bool) : Inv (close keeps db).2 := by
  have hempty : Inv { db with isOpen := false, sqlite := .empty } :=
    ⟨by simp [Sqlite.empty], by simp [Sqlite.empty], by simp [Sqlite.empty], h.context,
      h.aggregates⟩
  rw [close]
  rw [RubyM.modify_run]
  split
  · exact hempty
  · exact h.of_tables rfl rfl rfl rfl rfl rfl

/-! ## What a call leaves behind -/

section Final

variable {P : Database → Prop} {db : Database}

theorem final_requireOpenDb {f : Unit → DatabaseM Unit} (hdb : P db) (hf : P (f () db).2) :
    P ((requireOpenDb >>= f) db).2 := by
  cases hopen : db.isOpen with
  | true =>
      have hrun : requireOpenDb db = (.ok (), db) := by simp [requireOpenDb, hopen]
      rwa [RubyM.bind_run_ok () f hrun]
  | false =>
      have hrun : requireOpenDb db =
          (.raise ⟨.SQLite3Exception, "cannot use a closed database"⟩, db) := by
        simp [requireOpenDb, hopen]
      rwa [RubyM.bind_run_raise f hrun]

/-- SQLite takes the change, or `CHECK` raises and nothing has changed. -/
theorem checkSqlite_run (answer : Answer) (change : Sqlite → Sqlite) (db : Database) :
    checkSqlite answer change db = (.ok (), { db with sqlite := change db.sqlite }) ∨
      ∃ e, checkSqlite answer change db = (.raise e, db) := by
  cases answer with
  | ok => exact Or.inl rfl
  | error status errmsg =>
      obtain ⟨e, he, -⟩ := check_errorStatus status errmsg
      exact Or.inr ⟨e, by simp [checkSqlite, Answer.check, he]⟩

theorem final_checkSqlite {answer : Answer} {change : Sqlite → Sqlite} {f : Unit → DatabaseM Unit}
    (hdb : P db) (hf : P (f () { db with sqlite := change db.sqlite }).2) :
    P ((checkSqlite answer change >>= f) db).2 := by
  obtain hrun | ⟨e, hrun⟩ := checkSqlite_run answer change db
  · rwa [RubyM.bind_run_ok () f hrun]
  · rwa [RubyM.bind_run_raise f hrun]

theorem final_checkSqlite_last {answer : Answer} {change : Sqlite → Sqlite} (hdb : P db)
    (hchange : P { db with sqlite := change db.sqlite }) :
    P (checkSqlite answer change db).2 := by
  obtain hrun | ⟨e, hrun⟩ := checkSqlite_run answer change db
  · rwa [hrun]
  · rwa [hrun]

end Final

theorem Inv.defineFunctionWithFlags {db : Database} (h : Inv db) (name : List UInt8)
    (flags : Value) (block : ObjectId) (arity : Int) (answer : Answer) :
    Inv (Registration.defineFunctionWithFlags name flags block arity answer db).2 := by
  apply final_requireOpenDb h
  apply RubyM.final_lift h
  intro _
  apply final_checkSqlite h
  exact h.setScalar ⟨sqliteName name, arity⟩ block

theorem Inv.defineAggregator2 {db : Database} (h : Inv db) (toS : String) (name : List UInt8)
    (arity : Option (Outcome Value)) (answer : Answer) :
    Inv (Registration.defineAggregator2 toS name arity answer db).2 := by
  apply final_requireOpenDb h
  apply RubyM.final_lift h
  intro arity
  split
  · exact h
  · have hallocated : Inv { db with nextWrapper := db.nextWrapper + 1 } :=
      h.of_tables rfl rfl rfl rfl rfl rfl
    rw [RubyM.get_bind, RubyM.modify_bind]
    split
    · exact hallocated
    · apply final_checkSqlite hallocated
      exact hallocated.setAggregate ⟨sqliteName name, arity⟩ db.nextWrapper

theorem Inv.collation {db : Database} (h : Inv db) (name : Key) (comparator : Option ObjectId)
    (answer : Answer) : Inv (Registration.collation name comparator answer db).2 := by
  apply final_requireOpenDb h
  apply final_checkSqlite h
  exact h.setCollation name comparator

/-- Every call keeps its object in step with SQLite's tables, whatever SQLite answers. -/
theorem Inv.call {db : Database} (h : Inv db) (c : Call) : Inv (c.run db).2 := by
  cases c with
  | defineFunction name block arity answer =>
      exact h.defineFunctionWithFlags name (.integer 1) block arity answer
  | defineFunctionWithFlags name flags block arity answer =>
      exact h.defineFunctionWithFlags name flags block arity answer
  | createFunction name textRep block answer =>
      exact h.defineFunctionWithFlags name textRep block (-1) answer
  | defineAggregator2 toS name arity answer => exact h.defineAggregator2 toS name arity answer
  | collation name comparator answer => exact h.collation name comparator answer
  | trace block =>
      apply final_requireOpenDb h
      exact h.of_tables rfl rfl rfl rfl rfl rfl
  | busyHandler block answer =>
      have hwritten : Inv { db with busyHandler := block } := h.of_tables rfl rfl rfl rfl rfl rfl
      apply final_requireOpenDb h
      rw [RubyM.modify_bind]
      apply final_checkSqlite_last hwritten
      exact h.of_tables rfl rfl rfl rfl rfl rfl
  | setBusyTimeout timeout answer =>
      apply final_requireOpenDb h
      apply RubyM.final_lift h
      intro _
      apply final_checkSqlite_last h
      exact h.of_tables rfl rfl rfl rfl rfl rfl
  | setAuthorizer authorizer answer =>
      apply final_requireOpenDb h
      apply final_checkSqlite h
      exact h.of_tables rfl rfl rfl rfl rfl rfl
  | close keeps => exact h.closed keeps

/-- A callback starts no context of an aggregator that is not pinned. -/
theorem Inv.callback {db : Database} (h : Inv db) {long : SizeofLong} {ctx : Aggregator.Context}
    {event : Aggregator.GroupEvent} (haw : ctx.aw ∈ db.aggregators.pinned)
    {aggregates : Aggregator.System}
    (hstep : Aggregator.step long db.aggregates (ctx, event) = some aggregates) :
    Inv { db with aggregates := aggregates } := by
  obtain ⟨-, hserves, -, -, hinv⟩ := Aggregator.step_serves h.aggregates hstep
  refine ⟨h.scalar, h.aggregate, h.comparator, ?_, hinv⟩
  intro ctx' i hslot
  by_cases hctx : ctx' = ctx
  · exact hctx ▸ haw
  · change aggregates.mem.slot ctx' = .inst i at hslot
    rw [hserves.slot_of_ne ctx' hctx] at hslot
    exact h.context ctx' i hslot

theorem inv_step {long : SizeofLong} {db db' : Database} {a : Action} (h : Inv db)
    (hstep : step long db a = some db') : Inv db' := by
  cases a with
  | call c =>
      obtain rfl := Option.some.inj hstep
      exact h.call c
  | aggregate key ctx event =>
      simp only [step, Option.ite_none_right_eq_some, Option.map_eq_some_iff] at hstep
      obtain ⟨hknown, aggregates, haggregates, rfl⟩ := hstep
      apply h.callback _ haggregates
      rcases hknown with hlive | hkey
      · exact h.live_pinned hlive
      · exact h.aggregate key ctx.aw hkey

theorem inv_new : Inv Database.new :=
  ⟨by simp [Database.new, Sqlite.empty], by simp [Database.new, Sqlite.empty],
    by simp [Database.new, Sqlite.empty], by simp [Database.new, Aggregator.initial],
    Aggregator.inv_initial⟩

/-- Whatever is registered, replaced, refused or removed, and whatever aggregates
run, everything SQLite can call back into is pinned. -/
theorem registered_objects_pinned (long : SizeofLong) (as : List Action) :
    StepSystem.AlwaysState (step long) Pinned Database.new as := by
  have hinv : StepSystem.AlwaysState (step long) Inv Database.new as :=
    StepSystem.alwaysState_of_invariant (fun _ _ _ => inv_step) inv_new
  exact hinv.mono fun _ h => h.pinned

end Sqlite3Ruby.Registration
