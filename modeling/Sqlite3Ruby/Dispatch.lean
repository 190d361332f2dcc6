import Sqlite3Ruby.Callback
import Sqlite3Ruby.Overload

/-!
# What SQLite calls back

SQLite has a C function of the extension for each function, collation and hook, which looks up
the Ruby object to call. The object is to be the one that was registered last, and there is to be
one, whatever was replaced, refused or removed before.

## Implementation notes

A registry holds the objects by what they are called for. It goes through the calls of a
connection by itself. SQLite takes every busy handler. Its own table keeps functions of one name
and arity apart by their text encoding, and it may call any of them, so each name and arity is
registered for one encoding.
-/

namespace Sqlite3Ruby.Registration

/-- What a callback is made for. -/
inductive Slot
  | function (key : FunctionKey)
  | collation (name : List UInt8)
  | busy
  | trace
  | authorizer
  deriving DecidableEq

def UserData.object : UserData → Object
  | scalar block => .user block
  | aggregate aw => .wrapper aw

/-- A hook calls the handler in the context struct, which may be `nil`. -/
def hookCalls (hook : Bool) (handler : Option ObjectId) : Option (Option Object) :=
  if hook then some (handler.map .user) else none

/-- The object that is called, if there is a callback. -/
def Database.calls (db : Database) : Slot → Option (Option Object)
  | .function key => (db.sqlite.functions key).map fun userData => some userData.object
  | .collation name => (db.sqlite.collations name).map fun o => some (.user o)
  | .busy => hookCalls db.sqlite.busyHook db.busyHandler
  | .trace => hookCalls db.sqlite.traceHook db.traceHandler
  | .authorizer => hookCalls db.sqlite.authHook db.authorizer

/-! ## The registry -/

/-- The objects by what they are called for. -/
abbrev Handlers := Slot → Option Object

/-- What is registered. -/
structure Registry where
  isOpen : Bool
  nextWrapper : Aggregator.WrapperId
  handler : Handlers

def Registry.new : Registry := ⟨true, 0, fun _ => none⟩

/-- The arity of an aggregator is in order. -/
def arityInRange (arity : Option (Outcome Value)) : Bool :=
  match aggregatorArity arity with
  | .ok n => decide (-1 ≤ n ∧ n ≤ 127)
  | _ => false

/-- The arguments are in order, and SQLite takes the call. -/
def Call.accepted : Call → Bool
  | defineFunction _ _ _ answer | collation _ _ answer | busyHandler _ answer
  | setAuthorizer _ answer => answer.isOk
  | defineFunctionWithFlags _ flags _ _ answer | createFunction _ flags _ answer
  | setBusyTimeout flags answer => decide (num2int flags).Returns && answer.isOk
  | defineAggregator2 _ name arity answer =>
      arityInRange arity && (decide (0 ∉ name) && answer.isOk)
  | trace _ | close _ => true

def Call.closes : Call → Bool
  | close _ => true
  | _ => false

/-- A wrapper is made before the name is looked at. -/
def Call.makesWrapper : Call → Bool
  | defineAggregator2 _ _ arity _ => arityInRange arity
  | _ => false

/-- What is registered after an accepted call, with the wrapper for an aggregator. -/
def Call.registers (aw : Aggregator.WrapperId) (handler : Handlers) : Call → Handlers
  | defineFunction name block arity _ | defineFunctionWithFlags name _ block arity _ =>
      Function.update handler (.function ⟨sqliteName name, arity⟩) (some (.user block))
  | createFunction name _ block _ =>
      Function.update handler (.function ⟨sqliteName name, -1⟩) (some (.user block))
  | defineAggregator2 _ name arity _ =>
      match aggregatorArity arity with
      | .ok n => Function.update handler (.function ⟨sqliteName name, n⟩) (some (.wrapper aw))
      | _ => handler
  | collation name comparator _ =>
      Function.update handler (.collation (sqliteName name.bytes)) (comparator.map .user)
  | trace block => Function.update handler .trace (block.map .user)
  | busyHandler block _ => Function.update handler .busy (block.map .user)
  | setBusyTimeout _ _ => Function.update handler .busy none
  | setAuthorizer authorizer _ => Function.update handler .authorizer (authorizer.map .user)
  | close keeps => if keeps then handler else fun _ => none

/-- The call returns. -/
def Registry.accepts (r : Registry) (c : Call) : Bool := c.closes || (r.isOpen && c.accepted)

/-- A call that does not return changes no handler. -/
def Registry.perform (r : Registry) (c : Call) : Registry where
  isOpen := r.isOpen && !c.closes
  nextWrapper := if r.isOpen && c.makesWrapper then r.nextWrapper + 1 else r.nextWrapper
  handler := if r.isOpen && c.accepted then c.registers r.nextWrapper r.handler else r.handler

/-- A callback of an aggregate function registers nothing. -/
def Registry.after (r : Registry) : Action → Registry
  | .call c => r.perform c
  | .aggregate _ _ _ => r

/-- The registry that a connection stands for. -/
def Database.registry (db : Database) : Registry :=
  ⟨db.isOpen, db.nextWrapper, fun slot => (db.calls slot).join⟩

/-! ## One call -/

/-- There is an object behind each callback. -/
def Hooked (db : Database) : Prop := ∀ slot, db.calls slot ≠ some none

/-- The call is accepted and leaves `done`, or it does not return and leaves `kept`. -/
def Leaves (m : DatabaseM Unit) (db : Database) (accepted : Bool) (done kept : Database) : Prop :=
  if accepted then m db = (.ok (), done) else ¬ (m db).1.Returns ∧ (m db).2 = kept

section Leaves

variable {α : Type} {db done kept : Database} {accepted : Bool}

theorem Leaves.of_run {m m' : DatabaseM Unit} {db' : Database}
    (h : Leaves m' db' accepted done kept) (hrun : m db = m' db') :
    Leaves m db accepted done kept := by
  rw [Leaves, hrun]
  exact h

theorem Leaves.returns_iff {m : DatabaseM Unit} (h : Leaves m db accepted done kept) :
    (m db).1.Returns ↔ accepted = true := by
  cases accepted with
  | true =>
      have hrun : m db = (.ok (), done) := h
      rw [hrun]
      exact iff_of_true (Outcome.returns_ok ()) rfl
  | false =>
      have hrun : ¬ (m db).1.Returns ∧ (m db).2 = kept := h
      exact iff_of_false hrun.1 Bool.false_ne_true

theorem Leaves.state {m : DatabaseM Unit} (h : Leaves m db accepted done kept) :
    (m db).2 = if accepted then done else kept := by
  cases accepted with
  | true =>
      have hrun : m db = (.ok (), done) := h
      rw [hrun]
      rfl
  | false => exact h.2

theorem requireOpenDb_closed (hclosed : db.isOpen = false) :
    requireOpenDb db = (.raise ⟨.SQLite3Exception, "cannot use a closed database"⟩, db) := by
  rw [requireOpenDb, RubyM.get_bind, hclosed]
  rfl

/-- Every method but `close` begins so. -/
theorem leaves_requireOpenDb {f : Unit → DatabaseM Unit} (h : Leaves (f ()) db accepted done db) :
    Leaves (requireOpenDb >>= f) db (db.isOpen && accepted) done db := by
  cases hopen : db.isOpen with
  | true =>
      have hrun : (requireOpenDb >>= f) db = f () db :=
        RubyM.bind_run_ok () f (requireOpenDb_run hopen)
      simpa only [Leaves, hrun, Bool.true_and] using h
  | false =>
      have hrun := RubyM.bind_run_raise f (requireOpenDb_closed hopen)
      simp [Leaves, hrun]

theorem leaves_modify (f : Database → Database) (db : Database) :
    Leaves (RubyM.modify f) db true (f db) db := rfl

theorem leaves_lift {o : Outcome α} {f : α → DatabaseM Unit}
    (h : ∀ a, o = .ok a → Leaves (f a) db accepted done db) :
    Leaves (RubyM.lift o >>= f) db (decide o.Returns && accepted) done db := by
  cases o with
  | ok a => simpa [Leaves] using h a rfl
  | raise e => simp [Leaves]
  | jump tag => simp [Leaves]

theorem leaves_checkSqlite (answer : Answer) {change : Sqlite → Sqlite} {f : Unit → DatabaseM Unit}
    (h : f () { db with sqlite := change db.sqlite } = (.ok (), done)) :
    Leaves (checkSqlite answer change >>= f) db answer.isOk done db := by
  cases answer with
  | ok =>
      have hrun : checkSqlite .ok change db = (.ok (), { db with sqlite := change db.sqlite }) := rfl
      change (checkSqlite .ok change >>= f) db = (.ok (), done)
      rw [RubyM.bind_run_ok () f hrun, h]
  | error status errmsg =>
      obtain ⟨e, he, -⟩ := check_errorStatus status errmsg
      have hrun : checkSqlite (.error status errmsg) change db = (.raise e, db) := by
        simp [checkSqlite, Answer.check, he]
      simp [Leaves, Answer.isOk, RubyM.bind_run_raise f hrun]

theorem leaves_checkSqlite_last (answer : Answer) (change : Sqlite → Sqlite) :
    Leaves (checkSqlite answer change) db answer.isOk { db with sqlite := change db.sqlite } db := by
  cases answer with
  | ok => rfl
  | error status errmsg =>
      obtain ⟨e, he, -⟩ := check_errorStatus status errmsg
      simp [Leaves, Answer.isOk, checkSqlite, Answer.check, he]

end Leaves

/-! ## What is called afterwards -/

section Calls

variable {db : Database}

theorem calls_setFunction (key : FunctionKey) (userData : UserData) (db : Database) :
    ({ db with sqlite := db.sqlite.setFunction key userData } : Database).calls =
      Function.update db.calls (.function key) (some (some userData.object)) := by
  ext1 slot
  cases slot with
  | function key' =>
      by_cases hkey : key' = key
      · simp [Database.calls, Sqlite.setFunction, hkey]
      · simp [Database.calls, Sqlite.setFunction, hkey]
  | collation name => simp [Database.calls, Sqlite.setFunction]
  | busy => simp [Database.calls, Sqlite.setFunction]
  | trace => simp [Database.calls, Sqlite.setFunction]
  | authorizer => simp [Database.calls, Sqlite.setFunction]

theorem calls_setCollation (name : List UInt8) (comparator : Option ObjectId) (db : Database) :
    ({ db with sqlite := db.sqlite.setCollation name comparator } : Database).calls =
      Function.update db.calls (.collation name) ((comparator.map .user).map some) := by
  ext1 slot
  cases slot with
  | collation name' =>
      by_cases hname : name' = name
      · simp [Database.calls, Sqlite.setCollation, hname, Function.comp_def]
      · simp [Database.calls, Sqlite.setCollation, hname]
  | function key => simp [Database.calls, Sqlite.setCollation]
  | busy => simp [Database.calls, Sqlite.setCollation]
  | trace => simp [Database.calls, Sqlite.setCollation]
  | authorizer => simp [Database.calls, Sqlite.setCollation]

/-- A hook is set for a handler that is not `nil` and removed for one that is. -/
theorem hookCalls_isSome (handler : Option ObjectId) :
    hookCalls handler.isSome handler = handler.map (some ∘ .user) := by
  cases handler <;> rfl

/-- One callback has changed, and has an object behind it if it is there. -/
structure Registers (slot : Slot) (object : Option Object) (db db' : Database) : Prop where
  isOpen : db'.isOpen = db.isOpen
  nextWrapper : db'.nextWrapper = db.nextWrapper
  calls : db'.calls = Function.update db.calls slot (object.map some)

variable {slot : Slot} {object : Option Object} {db' : Database}

theorem Registers.hooked (h : Registers slot object db db') (hhooked : Hooked db) : Hooked db' := by
  intro slot'
  rw [h.calls]
  by_cases hslot : slot' = slot
  · rw [hslot, Function.update_self]
    cases object <;> simp
  · rw [Function.update_of_ne hslot]
    exact hhooked slot'

theorem Registers.handler (h : Registers slot object db db') :
    db'.registry.handler = Function.update db.registry.handler slot object := by
  ext1 slot'
  change (db'.calls slot').join = _
  rw [h.calls]
  by_cases hslot : slot' = slot
  · rw [hslot, Function.update_self, Function.update_self]
    cases object <;> rfl
  · rw [Function.update_of_ne hslot, Function.update_of_ne hslot]
    rfl

/-- What a call does to a connection is what it does to the registry. -/
structure Agrees (c : Call) (db : Database) : Prop where
  returns : (c.run db).1.Returns ↔ db.registry.accepts c = true
  registry : (c.run db).2.registry = db.registry.perform c
  hooked : Hooked (c.run db).2

theorem agrees_of_leaves {c : Call} {accepted : Bool} {done kept : Database}
    (haccepts : db.registry.accepts c = accepted) (hleaves : Leaves c.run db accepted done kept)
    (hdone : accepted = true → done.registry = db.registry.perform c ∧ Hooked done)
    (hkept : accepted = false → kept.registry = db.registry.perform c ∧ Hooked kept) :
    Agrees c db := by
  have hfinal : (c.run db).2.registry = db.registry.perform c ∧ Hooked (c.run db).2 := by
    rw [hleaves.state]
    cases accepted with
    | true => exact hdone rfl
    | false => exact hkept rfl
  exact ⟨haccepts ▸ hleaves.returns_iff, hfinal.1, hfinal.2⟩

/-- A call that changes one callback, unless it fails. -/
theorem agrees_of_registers {c : Call} {done : Database} (hhooked : Hooked db)
    (hcloses : c.closes = false) (hwrapper : c.makesWrapper = false)
    (hregisters : c.registers db.nextWrapper db.registry.handler =
      Function.update db.registry.handler slot object)
    (hleaves : Leaves c.run db (db.isOpen && c.accepted) done db)
    (hdone : Registers slot object db done) : Agrees c db := by
  have hperform : db.registry.perform c = ⟨db.isOpen, db.nextWrapper,
      if db.isOpen && c.accepted then Function.update db.registry.handler slot object
        else db.registry.handler⟩ := by
    have hregisters' : c.registers db.registry.nextWrapper db.registry.handler = _ := hregisters
    rw [Registry.perform, hcloses, hwrapper, hregisters']
    simp only [Bool.not_false, Bool.and_true, Bool.and_false, Bool.false_eq_true, if_false]
    rfl
  refine agrees_of_leaves ?_ hleaves ?_ ?_
  · rw [Registry.accepts, hcloses, Bool.false_or]
    rfl
  · intro haccepted
    rw [hperform, if_pos haccepted, ← hdone.handler, ← hdone.isOpen, ← hdone.nextWrapper]
    exact ⟨rfl, hdone.hooked hhooked⟩
  · intro hrefused
    rw [hperform, if_neg (Bool.eq_false_iff.mp hrefused)]
    exact ⟨rfl, hhooked⟩

theorem agrees_defineFunctionWithFlags (hhooked : Hooked db) (name : List UInt8) (flags : Value)
    (block : ObjectId) (arity : Int) (answer : Answer) :
    Agrees (.defineFunctionWithFlags name flags block arity answer) db := by
  refine agrees_of_registers hhooked rfl rfl rfl
    (leaves_requireOpenDb (leaves_lift fun _ _ => leaves_checkSqlite answer rfl)) ?_
  exact ⟨rfl, rfl, calls_setFunction _ _ db⟩

theorem agrees_defineFunction (hhooked : Hooked db) (name : List UInt8) (block : ObjectId)
    (arity : Int) (answer : Answer) : Agrees (.defineFunction name block arity answer) db := by
  have h := agrees_defineFunctionWithFlags hhooked name (.integer 1) block arity answer
  exact ⟨h.returns, h.registry, h.hooked⟩

theorem agrees_createFunction (hhooked : Hooked db) (name : List UInt8) (textRep : Value)
    (block : ObjectId) (answer : Answer) : Agrees (.createFunction name textRep block answer) db := by
  have h := agrees_defineFunctionWithFlags hhooked name textRep block (-1) answer
  exact ⟨h.returns, h.registry, h.hooked⟩

theorem agrees_collation (hhooked : Hooked db) (name : Key) (comparator : Option ObjectId)
    (answer : Answer) : Agrees (.collation name comparator answer) db := by
  refine agrees_of_registers hhooked rfl rfl rfl
    (leaves_requireOpenDb (leaves_checkSqlite answer rfl)) ?_
  exact ⟨rfl, rfl, calls_setCollation _ comparator db⟩

theorem agrees_trace (hhooked : Hooked db) (block : Option ObjectId) :
    Agrees (.trace block) db := by
  refine agrees_of_registers hhooked rfl rfl rfl (leaves_requireOpenDb (leaves_modify _ db))
    ⟨rfl, rfl, ?_⟩
  ext1 slot
  cases slot <;> simp [Database.calls, hookCalls_isSome]

theorem agrees_setAuthorizer (hhooked : Hooked db) (authorizer : Option ObjectId)
    (answer : Answer) : Agrees (.setAuthorizer authorizer answer) db := by
  refine agrees_of_registers hhooked rfl rfl rfl
    (leaves_requireOpenDb (leaves_checkSqlite answer rfl)) ⟨rfl, rfl, ?_⟩
  ext1 slot
  cases slot <;> simp [Database.calls, hookCalls_isSome]

theorem agrees_setBusyTimeout (hhooked : Hooked db) (timeout : Value) (answer : Answer) :
    Agrees (.setBusyTimeout timeout answer) db := by
  refine agrees_of_registers hhooked rfl rfl rfl
    (leaves_requireOpenDb (leaves_lift fun _ _ => leaves_checkSqlite_last answer _)) ⟨rfl, rfl, ?_⟩
  ext1 slot
  cases slot <;> simp [Database.calls, hookCalls]

/-- SQLite takes the handler. -/
theorem agrees_busyHandler (hhooked : Hooked db) (block : Option ObjectId) :
    Agrees (.busyHandler block .ok) db := by
  refine agrees_of_registers hhooked rfl rfl rfl
    (leaves_requireOpenDb (leaves_modify (fun db => { db with
      busyHandler := block, sqlite := { db.sqlite with busyHook := block.isSome } }) db))
    ⟨rfl, rfl, ?_⟩
  ext1 slot
  cases slot <;> simp [Database.calls, hookCalls_isSome]

/-- SQLite's side is gone, or it is kept with what it refers to. -/
theorem agrees_close (hhooked : Hooked db) (keeps : Bool) : Agrees (.close keeps) db := by
  have hgone : ({ db with isOpen := false, sqlite := .empty } : Database).calls = fun _ => none := by
    ext1 slot
    cases slot <;> rfl
  have hkept : ({ db with isOpen := false } : Database).calls = db.calls := by
    ext1 slot
    cases slot <;> rfl
  have hcalls : ((Call.close keeps).run db).2.calls =
      if db.isOpen && !keeps then fun _ => none else db.calls := by
    have hrun : ((Call.close keeps).run db).2 = { db with
        isOpen := false, sqlite := if db.isOpen && !keeps then .empty else db.sqlite } := rfl
    rw [hrun]
    split
    · exact hgone
    · exact hkept
  refine ⟨iff_of_true (Outcome.returns_ok ()) rfl, ?_, ?_⟩
  · have hhandler : (fun slot => (((Call.close keeps).run db).2.calls slot).join) =
        (db.registry.perform (.close keeps)).handler := by
      rw [hcalls]
      have hopen : db.registry.isOpen = db.isOpen := rfl
      simp only [Registry.perform, Call.accepted, Call.registers, hopen, Bool.and_true]
      cases db.isOpen <;> cases keeps <;> rfl
    rw [Database.registry, hhandler]
    simp [Registry.perform, Call.closes, Call.makesWrapper, Call.run, close, Database.registry]
  · rw [Hooked, hcalls]
    split
    · simp
    · exact hhooked

/-- From the name on, `define_aggregator2` has made its wrapper. -/
theorem leaves_namedAggregator (name : List UInt8) (arity : Int) (aw : Aggregator.WrapperId)
    (answer : Answer) :
    Leaves (if 0 ∈ name then
        RubyM.lift (.raise ⟨.ArgumentError, "string contains null byte"⟩)
      else do
        checkSqlite answer (·.setFunction ⟨sqliteName name, arity⟩ (.aggregate aw))
        RubyM.modify fun db => { db with aggregators := db.aggregators.push aw }) db
      (decide (0 ∉ name) && answer.isOk)
      { db with
        sqlite := db.sqlite.setFunction ⟨sqliteName name, arity⟩ (.aggregate aw)
        aggregators := db.aggregators.push aw } db := by
  by_cases hname : 0 ∈ name
  · simp [Leaves, hname]
  · simpa only [hname, if_false, not_false_eq_true, decide_true, Bool.true_and] using
      leaves_checkSqlite answer rfl

/-- An aggregator that is refused before its wrapper is made. -/
theorem agrees_of_unwrapped {toS : String} {name : List UInt8} {arity : Option (Outcome Value)}
    {answer : Answer} (hhooked : Hooked db) (hunwrapped : (db.isOpen && arityInRange arity) = false)
    (hrun : ¬ ((Call.defineAggregator2 toS name arity answer).run db).1.Returns ∧
      ((Call.defineAggregator2 toS name arity answer).run db).2 = db) :
    Agrees (.defineAggregator2 toS name arity answer) db := by
  have hopened : db.registry.isOpen = db.isOpen := rfl
  have haccepted : (db.isOpen && (Call.defineAggregator2 toS name arity answer).accepted) =
      false := by
    rw [Call.accepted, ← Bool.and_assoc, hunwrapped, Bool.false_and]
  refine ⟨?_, ?_, ?_⟩
  · rw [Registry.accepts, hopened, haccepted]
    exact iff_of_false hrun.1 Bool.false_ne_true
  · rw [hrun.2, Registry.perform, hopened, haccepted, Call.makesWrapper, hunwrapped]
    simp only [Bool.false_eq_true, if_false, Call.closes, Bool.not_false, Bool.and_true]
    rfl
  · rw [hrun.2]
    exact hhooked

/-- A wrapper is counted also where SQLite refuses the function. -/
theorem agrees_of_wrapped {toS : String} {name : List UInt8} {arity : Option (Outcome Value)}
    {answer : Answer} (hhooked : Hooked db) (hopen : db.isOpen = true) {n : Int}
    (harity : aggregatorArity arity = .ok n) (hin : arityInRange arity = true)
    (hleaves : Leaves (Call.defineAggregator2 toS name arity answer).run db
      (decide (0 ∉ name) && answer.isOk)
      { db with
        nextWrapper := db.nextWrapper + 1
        sqlite := db.sqlite.setFunction ⟨sqliteName name, n⟩ (.aggregate db.nextWrapper)
        aggregators := db.aggregators.push db.nextWrapper }
      { db with nextWrapper := db.nextWrapper + 1 }) :
    Agrees (.defineAggregator2 toS name arity answer) db := by
  have hopened : db.registry.isOpen = true := hopen
  have haccepted : (Call.defineAggregator2 toS name arity answer).accepted =
      (decide (0 ∉ name) && answer.isOk) := by
    rw [Call.accepted, hin, Bool.true_and]
  have hkept : Hooked { db with nextWrapper := db.nextWrapper + 1 } := hhooked
  have hdone : Registers (.function ⟨sqliteName name, n⟩) (some (.wrapper db.nextWrapper))
      { db with nextWrapper := db.nextWrapper + 1 }
      { db with
        nextWrapper := db.nextWrapper + 1
        sqlite := db.sqlite.setFunction ⟨sqliteName name, n⟩ (.aggregate db.nextWrapper)
        aggregators := db.aggregators.push db.nextWrapper } :=
    ⟨rfl, rfl, calls_setFunction _ _ db⟩
  have hperform : db.registry.perform (.defineAggregator2 toS name arity answer) =
      ⟨db.isOpen, db.nextWrapper + 1, if decide (0 ∉ name) && answer.isOk then
        Function.update db.registry.handler (.function ⟨sqliteName name, n⟩)
          (some (.wrapper db.nextWrapper)) else db.registry.handler⟩ := by
    rw [Registry.perform, hopened, haccepted, Call.makesWrapper, hin, Call.registers, harity, hopen]
    rfl
  refine agrees_of_leaves ?_ hleaves ?_ ?_
  · rw [Registry.accepts, hopened, haccepted]
    rfl
  · intro htaken
    rw [hperform, if_pos htaken]
    exact ⟨congrArg (Registry.mk _ _) hdone.handler, hdone.hooked hkept⟩
  · intro hrefused
    rw [hperform, if_neg (Bool.eq_false_iff.mp hrefused)]
    exact ⟨rfl, hkept⟩

theorem agrees_defineAggregator2 (hhooked : Hooked db) (toS : String) (name : List UInt8)
    (arity : Option (Outcome Value)) (answer : Answer) :
    Agrees (.defineAggregator2 toS name arity answer) db := by
  cases hopen : db.isOpen with
  | false =>
      have hrun : (Call.defineAggregator2 toS name arity answer).run db = _ :=
        RubyM.bind_run_raise _ (requireOpenDb_closed hopen)
      refine agrees_of_unwrapped hhooked (by rw [hopen, Bool.false_and]) ?_
      rw [hrun]
      exact ⟨Outcome.not_returns_raise _, rfl⟩
  | true =>
      have hrun : (Call.defineAggregator2 toS name arity answer).run db = _ :=
        RubyM.bind_run_ok () _ (requireOpenDb_run hopen)
      cases harity : aggregatorArity arity with
      | raise e =>
          refine agrees_of_unwrapped hhooked (by rw [arityInRange, harity, Bool.and_false]) ?_
          rw [hrun, harity]
          exact ⟨Outcome.not_returns_raise _, rfl⟩
      | jump tag =>
          refine agrees_of_unwrapped hhooked (by rw [arityInRange, harity, Bool.and_false]) ?_
          rw [hrun, harity]
          exact ⟨Outcome.not_returns_jump _, rfl⟩
      | ok n =>
          rw [harity, RubyM.lift_ok_bind] at hrun
          have hin : arityInRange arity = true ↔ ¬ (n < -1 ∨ 127 < n) := by
            rw [arityInRange, harity, decide_eq_true_iff]
            omega
          by_cases hrange : n < -1 ∨ 127 < n
          · have hout : arityInRange arity = false :=
              Bool.eq_false_iff.mpr fun h => hin.mp h hrange
            refine agrees_of_unwrapped hhooked (by rw [hout, Bool.and_false]) ?_
            rw [hrun, if_pos hrange]
            exact ⟨Outcome.not_returns_raise _, rfl⟩
          · rw [if_neg hrange, RubyM.get_bind, RubyM.modify_bind] at hrun
            exact agrees_of_wrapped hhooked hopen harity (hin.mpr hrange)
              ((leaves_namedAggregator name n db.nextWrapper answer).of_run hrun)

/-- The registration is one that SQLite makes. -/
def Call.IsTaken : Call → Prop
  | busyHandler _ answer => answer = .ok
  | _ => True

theorem agrees_call (hhooked : Hooked db) {c : Call} (htaken : c.IsTaken) : Agrees c db := by
  cases c with
  | defineFunction name block arity answer => exact agrees_defineFunction hhooked _ _ _ _
  | defineFunctionWithFlags name flags block arity answer =>
      exact agrees_defineFunctionWithFlags hhooked _ _ _ _ _
  | createFunction name textRep block answer => exact agrees_createFunction hhooked _ _ _ _
  | defineAggregator2 toS name arity answer => exact agrees_defineAggregator2 hhooked _ _ _ _
  | collation name comparator answer => exact agrees_collation hhooked _ _ _
  | trace block => exact agrees_trace hhooked _
  | busyHandler block answer =>
      obtain rfl : answer = .ok := htaken
      exact agrees_busyHandler hhooked _
  | setBusyTimeout timeout answer => exact agrees_setBusyTimeout hhooked _ _
  | setAuthorizer authorizer answer => exact agrees_setAuthorizer hhooked _ _
  | close keeps => exact agrees_close hhooked _

end Calls

/-! ## Whole runs -/

theorem registry_step {long : SizeofLong} {db db' : Database} {a : Action} (hhooked : Hooked db)
    (htaken : ∀ c, a = .call c → c.IsTaken) (hstep : step long db a = some db') :
    db'.registry = db.registry.after a ∧ Hooked db' := by
  cases a with
  | call c =>
      obtain rfl := Option.some.inj hstep
      have hagrees := agrees_call hhooked (htaken c rfl)
      exact ⟨hagrees.registry, hagrees.hooked⟩
  | aggregate key ctx event =>
      simp only [step, Option.ite_none_right_eq_some, Option.map_eq_some_iff] at hstep
      obtain ⟨-, aggregates, -, rfl⟩ := hstep
      exact ⟨rfl, hhooked⟩

theorem registry_run {long : SizeofLong} {as : List Action} {db u : Database} (hhooked : Hooked db)
    (htaken : ∀ c, .call c ∈ as → c.IsTaken) (hrun : StepSystem.exec (step long) db as = some u) :
    u.registry = as.foldl Registry.after db.registry ∧ Hooked u := by
  induction as generalizing db with
  | nil =>
      obtain rfl : db = u := Option.some.inj hrun
      exact ⟨rfl, hhooked⟩
  | cons a as ih =>
      obtain ⟨t, ht, hrest⟩ := (StepSystem.exec_cons_eq_some _).mp hrun
      have htaken' (c : Call) (hc : a = .call c) : c.IsTaken := htaken c (hc ▸ List.mem_cons_self)
      obtain ⟨hregistry, hhooked'⟩ := registry_step hhooked htaken' ht
      rw [List.foldl_cons, ← hregistry]
      exact ih hhooked' (fun c hc => htaken c (List.mem_cons_of_mem a hc)) hrest

theorem hooked_new : Hooked Database.new := by
  intro slot
  cases slot <;> simp [Database.calls, Database.new, Sqlite.empty, hookCalls]

theorem registry_new : Database.new.registry = .new := by
  have hhandler : (fun slot => (Database.new.calls slot).join) = fun _ => none := by
    ext1 slot
    cases slot <;> rfl
  rw [Database.registry, hhandler]
  rfl

/-- The registry after a list of calls and callbacks. -/
def registered (as : List Action) : Registry := as.foldl Registry.after .new

theorem Hooked.calls_eq {db : Database} (h : Hooked db) (slot : Slot) :
    db.calls slot = (db.registry.handler slot).map some := by
  change db.calls slot = (db.calls slot).join.map some
  rcases hcalls : db.calls slot with _ | _ | object
  · rfl
  · exact absurd hcalls (h slot)
  · rfl

theorem run_registered {long : SizeofLong} {as : List Action}
    (htaken : ∀ c, .call c ∈ as → c.IsTaken) {db : Database}
    (hrun : StepSystem.exec (step long) Database.new as = some db) :
    db.registry = registered as ∧ Hooked db := by
  have h := registry_run hooked_new htaken hrun
  rwa [registry_new] at h

/-! ## Functions by their text encoding -/

/-- What SQLite keeps functions of one name and arity apart by. -/
inductive TextEncoding
  | utf8
  | utf16le
  | utf16be
  deriving DecidableEq

/-- The encodings that a function is registered for: `SQLITE_UTF16` is the machine's own, and
`SQLITE_ANY` makes three functions. -/
def textEncodings (bigEndian : Bool) (eTextRep : Int) : List TextEncoding :=
  match eTextRep % 8 with
  | 2 => [.utf16le]
  | 3 => [.utf16be]
  | 4 => [if bigEndian then .utf16be else .utf16le]
  | 5 => [.utf8, .utf16le, .utf16be]
  | _ => [.utf8]

theorem textEncodings_ne_nil (bigEndian : Bool) (eTextRep : Int) :
    textEncodings bigEndian eTextRep ≠ [] := by
  rw [textEncodings]
  split <;> exact List.cons_ne_nil _ _

/-- The function that a call gives to SQLite, its object and its `eTextRep`. -/
def Call.function (aw : Aggregator.WrapperId) : Call → Option (FunctionKey × Object × Int)
  | defineFunction name block arity _ => some (⟨sqliteName name, arity⟩, .user block, 1)
  | defineFunctionWithFlags name flags block arity _ =>
      match num2int flags with
      | .ok eTextRep => some (⟨sqliteName name, arity⟩, .user block, eTextRep)
      | _ => none
  | createFunction name textRep block _ =>
      match num2int textRep with
      | .ok eTextRep => some (⟨sqliteName name, -1⟩, .user block, eTextRep)
      | _ => none
  | defineAggregator2 _ name arity _ =>
      match aggregatorArity arity with
      | .ok n => some (⟨sqliteName name, n⟩, .wrapper aw, 1)
      | _ => none
  | _ => none

/-- SQLite's table of functions. -/
abbrev Entries := FunctionKey → TextEncoding → Option Object

def Entries.set (entries : Entries) (key : FunctionKey) (encodings : List TextEncoding)
    (object : Object) : Entries :=
  fun key' encoding =>
    if key' = key ∧ encoding ∈ encodings then some object else entries key' encoding

/-- A connection and SQLite's table of functions. -/
structure Connection where
  db : Database
  entries : Entries

def Connection.new : Connection := ⟨.new, fun _ _ => none⟩

/-- SQLite forgets its functions where the connection is closed and not kept. -/
def Call.empties : Call → Bool
  | close keeps => !keeps
  | _ => false

/-- What a call that returns makes of SQLite's table. -/
def Call.enters (bigEndian : Bool) (s : Connection) (c : Call) : Entries :=
  match c.function s.db.nextWrapper with
  | some (key, object, eTextRep) => s.entries.set key (textEncodings bigEndian eTextRep) object
  | none => if s.db.isOpen && c.empties then fun _ _ => none else s.entries

/-- A call that does not return leaves the table as it is, and so does a callback. -/
def Connection.entriesAfter (bigEndian : Bool) (s : Connection) : Action → Entries
  | .call c => if (c.run s.db).1.Returns then c.enters bigEndian s else s.entries
  | .aggregate _ _ _ => s.entries

def Connection.step (long : SizeofLong) (bigEndian : Bool) (s : Connection) (a : Action) :
    Option Connection :=
  (Registration.step long s.db a).map fun db => ⟨db, s.entriesAfter bigEndian a⟩

/-- The objects that SQLite may call: for a function, any that it has for the name and arity. -/
inductive Connection.Calls (s : Connection) : Slot → Option Object → Prop
  | function {key : FunctionKey} {encoding : TextEncoding} {object : Object}
      (h : s.entries key encoding = some object) : Calls s (.function key) (some object)
  | other {slot : Slot} {object : Option Object} (hslot : ∀ key, slot ≠ .function key)
      (h : s.db.calls slot = some object) : Calls s slot object

/-- Every name and arity is registered for the same encodings. -/
def EncodedAs (bigEndian : Bool) (textRep : FunctionKey → Int) (as : List Action) : Prop :=
  ∀ c aw key object eTextRep, .call c ∈ as → c.function aw = some (key, object, eTextRep) →
    textEncodings bigEndian eTextRep = textEncodings bigEndian (textRep key)

/-- SQLite's table has the registered object for each encoding of its function. -/
def Connection.Entered (bigEndian : Bool) (textRep : FunctionKey → Int) (s : Connection) : Prop :=
  ∀ key encoding, s.entries key encoding =
    if encoding ∈ textEncodings bigEndian (textRep key) then
      s.db.registry.handler (.function key) else none

theorem perform_function {r : Registry} {c : Call} {key : FunctionKey} {object : Object}
    {eTextRep : Int} (h : c.function r.nextWrapper = some (key, object, eTextRep)) :
    (r.perform c).handler = if r.accepts c = true then
      Function.update r.handler (.function key) (some object) else r.handler := by
  cases c with
  | defineFunction name block arity answer =>
      obtain ⟨rfl, rfl, -⟩ := by simpa [Call.function] using h
      rfl
  | defineFunctionWithFlags name flags block arity answer =>
      rw [Call.function] at h
      split at h
      · obtain ⟨rfl, rfl, -⟩ := by simpa using h
        rfl
      · cases h
  | createFunction name textRep block answer =>
      rw [Call.function] at h
      split at h
      · obtain ⟨rfl, rfl, -⟩ := by simpa using h
        rfl
      · cases h
  | defineAggregator2 toS name arity answer =>
      rw [Call.function] at h
      split at h
      · next n harity =>
        obtain ⟨rfl, rfl, -⟩ := by simpa using h
        simp [Registry.perform, Registry.accepts, Call.closes, Call.registers, harity]
      · cases h
  | collation name comparator answer => cases h
  | trace block => cases h
  | busyHandler block answer => cases h
  | setBusyTimeout timeout answer => cases h
  | setAuthorizer authorizer answer => cases h
  | close keeps => cases h

/-- An accepted call that gives no function to SQLite. -/
theorem registers_noFunction {c : Call} {aw : Aggregator.WrapperId} (h : c.function aw = none)
    (haccepted : c.accepted = true) (hcloses : c.closes = false) (handler : Handlers)
    (key : FunctionKey) :
    c.registers aw handler (.function key) = handler (.function key) := by
  cases c with
  | defineFunction name block arity answer => cases h
  | defineFunctionWithFlags name flags block arity answer =>
      rw [Call.accepted, Bool.and_eq_true, decide_eq_true_iff] at haccepted
      obtain ⟨n, hn⟩ := haccepted.1
      rw [Call.function, hn] at h
      cases h
  | createFunction name textRep block answer =>
      rw [Call.accepted, Bool.and_eq_true, decide_eq_true_iff] at haccepted
      obtain ⟨n, hn⟩ := haccepted.1
      rw [Call.function, hn] at h
      cases h
  | defineAggregator2 toS name arity answer =>
      rw [Call.function] at h
      split at h
      · cases h
      · next hraises =>
        rw [Call.accepted, Bool.and_eq_true, arityInRange] at haccepted
        split at haccepted
        · next n harity => exact absurd harity (hraises n)
        · exact absurd haccepted.1 Bool.false_ne_true
  | collation name comparator answer => rfl
  | trace block => rfl
  | busyHandler block answer => rfl
  | setBusyTimeout timeout answer => rfl
  | setAuthorizer authorizer answer => rfl
  | close keeps => cases hcloses

section Entered

variable {bigEndian : Bool} {textRep : FunctionKey → Int} {s : Connection}

theorem empties_of_not_closes {c : Call} (h : c.closes = false) : c.empties = false := by
  cases c with
  | close keeps => cases h
  | _ => rfl

theorem entered_close (keeps : Bool) (hentered : s.Entered bigEndian textRep) (key : FunctionKey)
    (encoding : TextEncoding) :
    (Call.close keeps).enters bigEndian s key encoding =
      if encoding ∈ textEncodings bigEndian (textRep key) then
        (s.db.registry.perform (.close keeps)).handler (.function key) else none := by
  have hopened : s.db.registry.isOpen = s.db.isOpen := rfl
  have hfunction : (Call.close keeps).function s.db.nextWrapper = none := rfl
  rw [Call.enters, hfunction, Registry.perform, hopened, Call.accepted, Call.registers,
    Call.empties]
  cases s.db.isOpen <;> cases keeps <;> simp [hentered key encoding]

/-- What a call does to the objects of functions is what it does to SQLite's table of them. -/
theorem entered_call {c : Call} (hencoded : ∀ aw key object eTextRep,
      c.function aw = some (key, object, eTextRep) →
        textEncodings bigEndian eTextRep = textEncodings bigEndian (textRep key))
    (hagrees : Agrees c s.db) (hentered : s.Entered bigEndian textRep) :
    (Connection.mk (c.run s.db).2 (s.entriesAfter bigEndian (.call c))).Entered bigEndian
      textRep := by
  intro key encoding
  change s.entriesAfter bigEndian (.call c) key encoding =
    if encoding ∈ textEncodings bigEndian (textRep key) then
      (c.run s.db).2.registry.handler (.function key) else none
  rw [Connection.entriesAfter, hagrees.registry]
  by_cases hreturns : (c.run s.db).1.Returns
  · rw [if_pos hreturns]
    have haccepts := hagrees.returns.mp hreturns
    rcases hfunction : c.function s.db.nextWrapper with _ | ⟨key', object, eTextRep⟩
    · cases hcloses : c.closes with
      | true =>
          cases c with
          | close keeps => exact entered_close keeps hentered key encoding
          | _ => cases hcloses
      | false =>
          rw [Registry.accepts, hcloses, Bool.false_or, Bool.and_eq_true] at haccepts
          have hkept : (s.db.registry.perform c).handler (.function key) =
              s.db.registry.handler (.function key) := by
            rw [Registry.perform, haccepts.1, haccepts.2]
            exact registers_noFunction hfunction haccepts.2 hcloses _ key
          rw [Call.enters, hfunction, empties_of_not_closes hcloses, hkept, ← hentered key encoding,
            Bool.and_false]
          rfl
    · have hset := perform_function (r := s.db.registry) hfunction
      rw [if_pos haccepts] at hset
      rw [Call.enters, hfunction, hset]
      by_cases hkey : key = key'
      · subst hkey
        simp only [Entries.set, Function.update_self, hentered key encoding,
          hencoded _ _ _ _ hfunction, true_and]
        by_cases hencoding : encoding ∈ textEncodings bigEndian (textRep key) <;> simp [hencoding]
      · simp [Entries.set, hkey, hentered key encoding]
  · rw [if_neg hreturns, hentered key encoding]
    have hrefused : s.db.registry.accepts c = false :=
      Bool.eq_false_iff.mpr fun haccepts => hreturns (hagrees.returns.mpr haccepts)
    rw [Registry.accepts, Bool.or_eq_false_iff] at hrefused
    rw [Registry.perform, if_neg (Bool.eq_false_iff.mp hrefused.2)]

theorem entered_step {long : SizeofLong} {t : Connection} {a : Action} (hhooked : Hooked s.db)
    (htaken : ∀ c, a = .call c → c.IsTaken)
    (hencoded : ∀ c aw key object eTextRep, a = .call c →
      c.function aw = some (key, object, eTextRep) →
        textEncodings bigEndian eTextRep = textEncodings bigEndian (textRep key))
    (hentered : s.Entered bigEndian textRep) (hstep : s.step long bigEndian a = some t) :
    t.db.registry = s.db.registry.after a ∧ Hooked t.db ∧ t.Entered bigEndian textRep := by
  obtain ⟨db, hdb, rfl⟩ := Option.map_eq_some_iff.mp hstep
  obtain ⟨hregistry, hhooked'⟩ := registry_step hhooked htaken hdb
  refine ⟨hregistry, hhooked', ?_⟩
  cases a with
  | call c =>
      obtain rfl := Option.some.inj hdb
      exact entered_call (fun aw key object eTextRep => hencoded c aw key object eTextRep rfl)
        (agrees_call hhooked (htaken c rfl)) hentered
  | aggregate key ctx event =>
      intro key' encoding
      change s.entries key' encoding = if encoding ∈ textEncodings bigEndian (textRep key') then
        db.registry.handler (.function key') else none
      rw [hregistry]
      exact hentered key' encoding

theorem entered_run {long : SizeofLong} {as : List Action} {u : Connection}
    (hhooked : Hooked s.db) (htaken : ∀ c, .call c ∈ as → c.IsTaken)
    (hencoded : EncodedAs bigEndian textRep as) (hentered : s.Entered bigEndian textRep)
    (hrun : StepSystem.exec (Connection.step long bigEndian) s as = some u) :
    u.db.registry = as.foldl Registry.after s.db.registry ∧ Hooked u.db ∧
      u.Entered bigEndian textRep := by
  induction as generalizing s with
  | nil =>
      obtain rfl : s = u := Option.some.inj hrun
      exact ⟨rfl, hhooked, hentered⟩
  | cons a as ih =>
      obtain ⟨t, ht, hrest⟩ := (StepSystem.exec_cons_eq_some _).mp hrun
      have hhead (c : Call) (hc : a = .call c) : .call c ∈ a :: as := hc ▸ List.mem_cons_self
      obtain ⟨hregistry, hhooked', hentered'⟩ := entered_step hhooked
        (fun c hc => htaken c (hhead c hc))
        (fun c aw key object eTextRep hc => hencoded c aw key object eTextRep (hhead c hc))
        hentered ht
      rw [List.foldl_cons, ← hregistry]
      exact ih hhooked' (fun c hc => htaken c (List.mem_cons_of_mem a hc))
        (fun c aw key object eTextRep hc =>
          hencoded c aw key object eTextRep (List.mem_cons_of_mem a hc)) hentered' hrest

end Entered

/-- Any of the encodings has the object. -/
theorem calls_iff_handler {bigEndian : Bool} {textRep : FunctionKey → Int} {s : Connection}
    (hhooked : Hooked s.db) (hentered : s.Entered bigEndian textRep) (slot : Slot)
    (object : Option Object) :
    s.Calls slot object ↔ (s.db.registry.handler slot).map some = some object := by
  constructor
  · rintro (⟨h⟩ | ⟨-, h⟩)
    · rw [hentered] at h
      split at h
      · rw [h, Option.map_some]
      · cases h
    · rw [← hhooked.calls_eq, h]
  · intro h
    cases slot with
    | function key =>
        obtain ⟨o, ho, rfl⟩ := Option.map_eq_some_iff.mp h
        obtain ⟨encoding, hencoding⟩ :=
          List.exists_mem_of_ne_nil _ (textEncodings_ne_nil bigEndian (textRep key))
        have hentry : s.entries key encoding = some o := by rw [hentered, if_pos hencoding, ho]
        exact .function hentry
    | _ => exact .other (by simp) (by rw [hhooked.calls_eq, h])

/-- After any run, SQLite calls the object that the registry has for each callback, and no callback
is left without an object; a call returns exactly when the registry accepts it. -/
theorem calls_registered (long : SizeofLong) (bigEndian : Bool) (as : List Action)
    (htaken : ∀ c, .call c ∈ as → c.IsTaken) (textRep : FunctionKey → Int)
    (hencoded : EncodedAs bigEndian textRep as) (s : Connection)
    (hrun : StepSystem.exec (Connection.step long bigEndian) .new as = some s) :
    (∀ slot object, s.Calls slot object ↔
      ((registered as).handler slot).map some = some object) ∧
      ∀ c, c.IsTaken → ((c.run s.db).1.Returns ↔ (registered as).accepts c = true) := by
  have hnew : Connection.new.Entered bigEndian textRep := fun key encoding => by
    simp [Connection.new, registry_new, Registry.new]
  obtain ⟨hregistry, hhooked, hentered⟩ := entered_run hooked_new htaken hencoded hnew hrun
  change _ = as.foldl Registry.after Database.new.registry at hregistry
  rw [registry_new] at hregistry
  rw [registered, ← hregistry]
  exact ⟨calls_iff_handler hhooked hentered, fun c hc => (agrees_call hhooked hc).returns⟩

/-- An authorizer is replaced, and another one refused; a function is replaced under the same name
in the other case, and a function that SQLite refuses leaves it in place. -/
def replacing : List Action :=
  [.call (.setAuthorizer (some 1) .ok), .call (.defineFunction [70] 2 1 .ok),
    .call (.setAuthorizer (some 3) .ok), .call (.defineFunction [102] 4 1 .ok),
    .call (.setAuthorizer none (.error ⟨21, by decide⟩ "")),
    .call (.defineFunction [102] 5 1 (.error ⟨21, by decide⟩ ""))]

theorem replacing_isTaken (c : Call) (hc : .call c ∈ replacing) : c.IsTaken := by
  simp only [replacing, List.mem_cons, Action.call.injEq, List.not_mem_nil, or_false] at hc
  rcases hc with rfl | rfl | rfl | rfl | rfl | rfl <;> trivial

theorem replacing_encodedAs : EncodedAs false (fun _ => 1) replacing := by
  intro c aw key object eTextRep hc hfunction
  simp only [replacing, List.mem_cons, Action.call.injEq, List.not_mem_nil, or_false] at hc
  rcases hc with rfl | rfl | rfl | rfl | rfl | rfl <;> simp_all [Call.function]

theorem replacing_calls :
    ∃ s, StepSystem.exec (Connection.step .eight false) .new replacing = some s ∧
      s.Calls .authorizer (some (.user 3)) ∧ s.Calls (.function ⟨[102], 1⟩) (some (.user 4)) ∧
      ¬ s.Calls (.function ⟨[102], 1⟩) (some (.user 2)) := by
  have hrun : ∃ s, StepSystem.exec (Connection.step .eight false) .new replacing = some s :=
    ⟨_, rfl⟩
  obtain ⟨s, hs⟩ := hrun
  obtain ⟨hcalls, -⟩ := calls_registered .eight false replacing replacing_isTaken _
    replacing_encodedAs s hs
  exact ⟨s, hs, (hcalls .authorizer _).mpr rfl, (hcalls (.function ⟨[102], 1⟩) _).mpr rfl,
    fun h => absurd ((hcalls (.function ⟨[102], 1⟩) _).mp h) (by decide)⟩

/-! ## Access -/

/-- How an access ends that a statement asks for: SQLite allows it where there is no authorizer.
`code` is what the objects do when they are called. -/
def Database.authorize (long : SizeofLong) (code : ObjectId → Authorizer) (db : Database)
    (action : Int) (a b c d : Option (List UInt8)) : Outcome Int :=
  match db.calls .authorizer with
  | none => .ok SQLITE_OK
  | some (some (.user o)) => rbSqlite3Auth long (code o) action a b c d
  | some _ => .raise ⟨.subclass "NoMethodError" (.subclass "NameError" .StandardError),
      "undefined method 'call' for nil"⟩

/-- SQLite is told to allow the access by 0 and by `true` alone. -/
theorem rbSqlite3Auth_eq_ok_iff (long : SizeofLong) (authorizer : Authorizer) (action : Int)
    (a b c d : Option (List UInt8)) :
    rbSqlite3Auth long authorizer action a b c d = .ok SQLITE_OK ↔
      authorizer action ([a, b, c, d].map (·.map rbStrNew)) = .ok (.integer 0) ∨
        authorizer action ([a, b, c, d].map (·.map rbStrNew)) = .ok .true_ := by
  have hignore : SQLITE_IGNORE ≠ SQLITE_OK := by decide
  have hdeny : SQLITE_DENY ≠ SQLITE_OK := by decide
  rw [rbSqlite3Auth]
  cases authorizer action ([a, b, c, d].map (·.map rbStrNew)) with
  | raise e => simp
  | jump tag => simp
  | ok result =>
      cases result with
      | integer n =>
          have hzero : checkInt n = .ok SQLITE_OK ↔ n = 0 :=
            ⟨fun h => (checkInt_eq_ok h).symm, fun h => by subst h; rfl⟩
          cases hfixnum : long.isFixnum n with
          | true => simp [hfixnum, hzero]
          | false =>
              have hn : n ≠ 0 := by
                rintro rfl
                cases long <;> exact absurd hfixnum (by decide)
              simp [hfixnum, hn, hignore]
      | true_ => simp
      | false_ => simp [hdeny]
      | nil => simp [hignore]
      | float x => simp [hignore]
      | string s => simp [hignore]
      | object klass toInt => simp [hignore]

/-- An authorizer hook never calls anything but a user's object. -/
theorem calls_authorizer (db : Database) :
    db.calls .authorizer = none ∨ db.calls .authorizer = some none ∨
      ∃ o, db.calls .authorizer = some (some (.user o)) := by
  cases hhook : db.sqlite.authHook with
  | false => exact Or.inl (by simp [Database.calls, hookCalls, hhook])
  | true =>
      cases hhandler : db.authorizer with
      | none => exact Or.inr (Or.inl (by simp [Database.calls, hookCalls, hhook, hhandler]))
      | some o => exact Or.inr (Or.inr ⟨o, by simp [Database.calls, hookCalls, hhook, hhandler]⟩)

/-- After any run, an access is allowed exactly when no authorizer is in place, or the one that
SQLite took last returns 0 or `true`. -/
theorem access_allowed_iff (long : SizeofLong) (as : List Action)
    (htaken : ∀ c, .call c ∈ as → c.IsTaken) (db : Database)
    (hrun : StepSystem.exec (step long) Database.new as = some db) (code : ObjectId → Authorizer)
    (action : Int) (a b c d : Option (List UInt8)) :
    db.authorize long code action a b c d = .ok SQLITE_OK ↔
      ∀ o, (registered as).handler .authorizer = some (.user o) →
        code o action ([a, b, c, d].map (·.map rbStrNew)) = .ok (.integer 0) ∨
          code o action ([a, b, c, d].map (·.map rbStrNew)) = .ok .true_ := by
  obtain ⟨hregistry, hhooked⟩ := run_registered htaken hrun
  have hcalls := hhooked.calls_eq .authorizer
  rw [hregistry] at hcalls
  rw [Database.authorize]
  rcases calls_authorizer db with hnone | hnil | ⟨o, ho⟩
  · have hfree : (registered as).handler .authorizer = none := by
      simpa [hnone] using hcalls.symm
    rw [hnone, hfree]
    exact iff_of_true rfl fun o ho => by cases ho
  · exact absurd hnil (hhooked .authorizer)
  · have hplaced : (registered as).handler .authorizer = some (.user o) := by
      simpa [ho] using hcalls.symm
    rw [ho, hplaced]
    apply (rbSqlite3Auth_eq_ok_iff long (code o) action a b c d).trans
    constructor
    · rintro h o' ho'
      cases ho'
      exact h
    · exact fun h => h o rfl

/-- Under the authorizers of `replacing`, the second decides. -/
theorem replacing_allows :
    ∃ db, StepSystem.exec (step .eight) Database.new replacing = some db ∧
      db.authorize .eight (fun o _ _ => .ok (if o = 3 then .true_ else .false_)) 20
        (some [116]) none none none = .ok SQLITE_OK := by
  have hrun : ∃ db, StepSystem.exec (step .eight) Database.new replacing = some db := ⟨_, rfl⟩
  obtain ⟨db, hdb⟩ := hrun
  refine ⟨db, hdb, (access_allowed_iff .eight replacing replacing_isTaken db hdb _ _ _ _ _ _).mpr ?_⟩
  rintro o ho
  obtain rfl : o = 3 := (Object.user.inj (Option.some.inj ho)).symm
  exact Or.inr rfl

end Sqlite3Ruby.Registration
