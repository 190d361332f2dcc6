import Sqlite3Ruby.Binding

/-!
# `Database.new`

`initialize` picks `sqlite3_open16` or `sqlite3_open_v2` from the encoding of the
filename and the options, and loads extensions into the connection it has opened.

## Implementation notes

SQLite hands out a connection also when it cannot open the file. The connections are a
list, in which a closed one leaves an empty place. What arguments of a wrong type do is
kept where the code comes to it.
-/

namespace Sqlite3Ruby.Opening

/-! ## The arguments -/

/-- What has to be the name of a file in the end. -/
inductive Name
  | string (s : RString) (frozen : Bool)
  | other (klass : String)

/-- `file`, which is asked for `to_path` if it has one. -/
inductive File
  | name (name : Name)
  | path (toPath : Outcome Name)

/-- A mode: an Integer, or another object with what `NUM2INT` and `& READONLY` make of it. -/
inductive Mode
  | integer (n : Int)
  | other (num2int : Outcome Int) (isReadonly : Outcome Bool)

/-- An element of `extensions`. -/
inductive Specifier
  | string (s : RString)
  | path (toPath : Outcome Value)
  | other (inspect : String)

/-- `options[:extensions]`. -/
inductive Extensions
  | nil
  | array (specifiers : List Specifier)
  | other

/-- The options that are looked at on the way. -/
structure Options where
  utf16 : Bool := false
  readonly : Bool := false
  readwrite : Bool := false
  flags : Option Mode := none
  strict : Bool := false
  extensions : Extensions := .nil

/-! ## SQLite -/

/-- How SQLite answers when it is to open a file. -/
inductive OpenAnswer
  | opened
  | failed (status : ErrorStatus) (errmsg : String)

/-- A call of `sqlite3_open_v2` or `sqlite3_open16`. -/
inductive Request
  | openV2 (file : List UInt8) (flags : Int) (zvfs : Option (List UInt8))
  | open16 (file : List UInt8)

/-- SQLite, which can have been compiled without extensions. -/
structure Sqlite where
  answer : Request → OpenAnswer
  enableLoadExtension : Option (Bool → Option ErrorStatus)
  loadExtension : List UInt8 → Nat × String
  errmsg : String

/-- A connection: whether it loads extensions, and takes double-quoted strings. -/
structure Connection where
  loadsExtensions : Bool := false
  quirks : Bool := true

/-- The calls that were made and the connections that they opened, with `ctx->db` and the
flag in `ctx->flags`. -/
structure State where
  requests : List Request := []
  connections : List (Option Connection) := []
  db : Option Nat := none
  readonly : Bool := false

abbrev OpenM := RubyM State

namespace State

def connect (st : State) (request : Request) : State :=
  { st with
    requests := st.requests ++ [request]
    connections := st.connections ++ [some {}]
    db := some st.connections.length }

/-- `sqlite3_close_v2(ctx->db); ctx->db = NULL`. -/
def disconnect (st : State) : State :=
  { st with
    connections := (st.db.map fun id => st.connections.set id none).getD st.connections
    db := none }

/-- Something is set on the connection. -/
def configure (st : State) (f : Connection → Connection) : State :=
  { st with
    connections := (st.db.map fun id => st.connections.modify id (Option.map f)).getD
      st.connections }

end State

/-! ## Strings for C -/

def NoMethodError : ExceptionClass :=
  .subclass "NoMethodError" (.subclass "NameError" .StandardError)

def FrozenError : ExceptionClass := .subclass "FrozenError" .RuntimeError

/-- `StringValueCStr`. -/
def stringValueCStr (bytes : List UInt8) : Outcome (List UInt8) :=
  if 0 ∈ bytes then .raise ⟨.ArgumentError, "string contains null byte"⟩ else .ok bytes

/-- `StringValueCStr` of an argument, NULL for `nil`. -/
def optionalCStr : Value → Outcome (Option (List UInt8))
  | .nil => .ok none
  | .string s => some <$> stringValueCStr s.bytes
  | value => .raise ⟨.TypeError, "no implicit conversion of " ++ value.className ++ " into String"⟩

/-- `StringValuePtr`. -/
def stringValuePtr : Value → Outcome (List UInt8)
  | .string s => .ok s.bytes
  | .nil => .raise ⟨.TypeError, "no implicit conversion of nil into String"⟩
  | value => .raise ⟨.TypeError, "no implicit conversion of " ++ value.className ++ " into String"⟩

/-- `utf16_string_value_ptr`: the string with two bytes more. A string without the tag is
taken to be in the byte order of the host. -/
def utf16StringValuePtr (host : Host) (s : RString) (frozen : Bool) : Outcome (List UInt8) :=
  let order := match s.encoding with
    | .utf16 order => order
    | _ => host.byteOrder
  let tagged : RString := { s with encoding := .utf16 order }
  if tagged.isBroken then
    .raise ⟨.ArgumentError, "invalid byte sequence in " ++ tagged.encoding.name⟩
  else if '\x00' ∈ (Utf16.decode (order.ofBytes s.bytes)).getD [] then
    .raise ⟨.ArgumentError, "string contains null char"⟩
  else if frozen then .raise ⟨FrozenError, "can't modify frozen String"⟩
  else .ok (s.bytes ++ [0, 0])

namespace Mode

/-- `NUM2INT(mode)`. -/
def toInt : Mode → Outcome Int
  | integer n => checkInt n
  | other num2int _ => num2int

/-- `mode & Constants::Open::READONLY != 0`. -/
def isReadonly : Mode → Outcome Bool
  | integer n => .ok (n % 2 = 1)
  | other _ isReadonly => isReadonly

/-- `Constants::Open::READONLY`, `READWRITE`, and `READWRITE | CREATE`. -/
def readonly : Mode := integer 1
def readwrite : Mode := integer 2
def create : Mode := integer 6

end Mode

/-- The mode that the options ask for. -/
def Options.mode (options : Options) : Outcome Mode :=
  if options.readwrite && options.readonly then
    .raise ⟨.RuntimeError, "conflicting options: readonly and readwrite"⟩
  else
    match options.flags with
    | some flags =>
        if options.readonly || options.readwrite then
          .raise ⟨.RuntimeError, "conflicting options: flags with readonly and/or readwrite"⟩
        else .ok flags
    | none =>
        .ok (if options.readwrite then .readwrite
          else if options.readonly then .readonly else .create)

/-- `file.to_path if file.respond_to? :to_path`. -/
def File.toPath : File → Outcome Name
  | .name n => .ok n
  | .path n => n

/-- What `load_extension` hands on. -/
def Specifier.file : Specifier → Outcome Value
  | .path toPath => toPath
  | .string s => .ok (.string s)
  | .other inspect => .raise ⟨.TypeError, "extension_specifier " ++ inspect ++
      " is not a String or a valid extension specifier object"⟩

/-! ## Opening -/

section Methods

variable (host : Host) (sqlite : Sqlite)

/-- A call that opens a file, with the check of its status. -/
def sqlite3Open (request : Request) : OpenM Unit := do
  RubyM.modify fun st => st.connect request
  match sqlite.answer request with
  | .opened => pure ()
  | .failed status errmsg => do
      RubyM.modify State.disconnect
      RubyM.lift (check status.1 errmsg)

def requireClosedDb : OpenM Unit := do
  let st ← RubyM.get
  if st.db.isSome then
    RubyM.lift (.raise ⟨.SQLite3Exception, "cannot open a database that is already open"⟩)
  else pure ()

def requireOpenDb : OpenM Unit := do
  let st ← RubyM.get
  if st.db.isNone then
    RubyM.lift (.raise ⟨.SQLite3Exception, "cannot use a closed database"⟩)
  else pure ()

/-- `open_v2`. -/
def openV2 (file : List UInt8) (mode : Mode) (zvfs : Value) : OpenM Unit := do
  requireClosedDb
  let flags ← RubyM.lift mode.toInt
  let file ← RubyM.lift (stringValueCStr file)
  let zvfs ← RubyM.lift (optionalCStr zvfs)
  sqlite3Open sqlite (.openV2 file flags zvfs)
  if flags % 2 = 1 then RubyM.modify fun st => { st with readonly := true } else pure ()

/-- `open16`. -/
def open16 (s : RString) (frozen : Bool) : OpenM Unit := do
  requireClosedDb
  let file ← RubyM.lift (utf16StringValuePtr host s frozen)
  sqlite3Open sqlite (.open16 file)

/-- `disable_quirk_mode`. -/
def disableQuirkMode : OpenM Unit :=
  RubyM.modify fun st => st.configure fun c => { c with quirks := false }

/-! ## Extensions -/

/-- `enable_load_extension`. -/
def enableLoadExtension (onoff : Bool) : OpenM Unit :=
  match sqlite.enableLoadExtension with
  | none => RubyM.lift (.raise ⟨NoMethodError, "undefined method 'enable_load_extension'"⟩)
  | some enable => do
      requireOpenDb
      match enable onoff with
      | none => RubyM.modify fun st => st.configure fun c => { c with loadsExtensions := onoff }
      | some status => RubyM.lift (check status.1 sqlite.errmsg)

/-- `load_extension`. -/
def loadExtension (specifier : Specifier) : OpenM Unit := do
  let file ← RubyM.lift specifier.file
  requireOpenDb
  let file ← RubyM.lift (stringValuePtr file)
  RubyM.lift (check (sqlite.loadExtension file).1 (sqlite.loadExtension file).2)

def loadEach : List Specifier → OpenM Unit
  | [] => pure ()
  | specifier :: specifiers => do
      loadExtension sqlite specifier
      loadEach specifiers

/-- `initialize_extensions`. -/
def initializeExtensions : Extensions → OpenM Unit
  | .nil => pure ()
  | .other => RubyM.lift (.raise ⟨.TypeError, "extensions must be an Array"⟩)
  | .array [] => pure ()
  | .array specifiers =>
      RubyM.ensure
        (do enableLoadExtension sqlite true
            loadEach sqlite specifiers)
        (enableLoadExtension sqlite false)

/-! ## The constructor -/

/-- The name of the file, as a string. -/
def Name.toString : Name → Outcome (RString × Bool)
  | .string s frozen => .ok (s, frozen)
  | .other klass => .raise ⟨NoMethodError, "undefined method 'encoding' for " ++ klass⟩

/-- The filename is opened as UTF-16. -/
def isUtf16 (s : RString) (options : Options) : Bool :=
  (match s.encoding with
    | .utf16 _ => true
    | _ => false) || options.utf16

/-- The part of `initialize` that opens the file, with the mode that it leaves. -/
def openFile (file : File) (options : Options) (zvfs : Value) : OpenM Mode := do
  let name ← RubyM.lift file.toPath
  let (s, frozen) ← RubyM.lift name.toString
  if isUtf16 s options then do
    open16 host sqlite s frozen
    pure .create
  else do
    let mode ← RubyM.lift options.mode
    let text ← RubyM.lift (strEncodeUtf8 host s)
    openV2 sqlite text mode zvfs
    if options.strict then disableQuirkMode else pure ()
    pure mode

/-- `Database#initialize`, whose rest only writes instance variables. -/
def databaseInitialize (file : File) (options : Options) (zvfs : Value) : OpenM Unit := do
  let mode ← openFile host sqlite file options zvfs
  let _ ← RubyM.lift mode.isReadonly
  initializeExtensions sqlite options.extensions

/-! ## What SQLite is asked for -/

/-- The call that opens the file, with the arguments as SQLite gets them, and the mode. -/
def openRequest (file : File) (options : Options) (zvfs : Value) : Outcome (Request × Mode) := do
  let name ← file.toPath
  let (s, frozen) ← name.toString
  if isUtf16 s options then do
    let text ← utf16StringValuePtr host s frozen
    pure (.open16 text, .create)
  else do
    let mode ← options.mode
    let text ← strEncodeUtf8 host s
    let flags ← mode.toInt
    let text ← stringValueCStr text
    let zvfs ← optionalCStr zvfs
    pure (.openV2 text flags zvfs, mode)

/-- SQLite switches the loading of extensions on or off. -/
def Switches (onoff : Bool) : Prop :=
  ∃ enable, sqlite.enableLoadExtension = some enable ∧ enable onoff = none

/-- SQLite loads the extension. -/
def Loads (specifier : Specifier) : Prop :=
  ∃ file text, specifier.file = .ok file ∧ stringValuePtr file = .ok text ∧
    (sqlite.loadExtension text).1 % 256 = 0

/-- `options[:extensions]` can be loaded. -/
def ExtensionsLoad : Extensions → Prop
  | .nil => True
  | .other => False
  | .array specifiers => specifiers ≠ [] →
      Switches sqlite true ∧ (∀ specifier ∈ specifiers, Loads sqlite specifier) ∧
        Switches sqlite false

/-- No open connection loads extensions. -/
def NotLoading (st : State) : Prop := ∀ c, some c ∈ st.connections → c.loadsExtensions = false

/-- Nothing that was opened is open, and no open connection loads extensions. -/
structure Clean (st : State) : Prop where
  closed : ∀ c ∈ st.connections, c = none
  disabled : NotLoading st

end Methods

variable {host : Host} {sqlite : Sqlite} {file : File} {options : Options} {zvfs : Value}

/-! ## A file that is opened -/

/-- One connection is open, which `ctx->db` refers to. -/
def IsOpen (st : State) : Prop := ∃ c, st.connections = [some c] ∧ st.db = some 0

theorem IsOpen.configure {st : State} (h : IsOpen st) (f : Connection → Connection) :
    IsOpen (st.configure f) := by
  obtain ⟨c, hc, hdb⟩ := h
  exact ⟨f c, by simp [State.configure, hc, hdb], hdb⟩

/-- What follows the call of SQLite. -/
def Request.settle (request : Request) (options : Options) (st : State) : State :=
  match request with
  | .open16 _ => st
  | .openV2 _ flags _ =>
      let st := if flags % 2 = 1 then { st with readonly := true } else st
      if options.strict then st.configure fun c => { c with quirks := false } else st

theorem requireClosedDb_new : requireClosedDb {} = (.ok (), {}) := rfl

/-- The arguments are looked at before SQLite is called. -/
theorem openFile_eq (host : Host) (sqlite : Sqlite) (file : File) (options : Options)
    (zvfs : Value) :
    openFile host sqlite file options zvfs {} =
      (RubyM.lift (openRequest host file options zvfs) >>= fun rm =>
        sqlite3Open sqlite rm.1 >>= fun _ =>
          RubyM.modify (rm.1.settle options) >>= fun _ => pure rm.2) {} := by
  rw [openFile, openRequest, RubyM.lift_bind, RubyM.bind_assoc]
  refine RubyM.lift_bind_congr fun name => ?_
  rw [RubyM.lift_bind, RubyM.bind_assoc]
  refine RubyM.lift_bind_congr fun name' => ?_
  obtain ⟨s, frozen⟩ := name'
  by_cases hutf16 : isUtf16 s options = true
  · simp only [hutf16, if_true]
    change ((requireClosedDb >>= _) >>= _) _ = _
    rw [RubyM.bind_assoc, RubyM.bind_run_ok () _ requireClosedDb_new, RubyM.bind_assoc,
      RubyM.lift_bind, RubyM.bind_assoc]
    exact RubyM.lift_bind_congr fun text => rfl
  · simp only [hutf16, Bool.false_eq_true, if_false]
    rw [RubyM.lift_bind, RubyM.bind_assoc]
    refine RubyM.lift_bind_congr fun mode => ?_
    rw [RubyM.lift_bind, RubyM.bind_assoc]
    refine RubyM.lift_bind_congr fun text => ?_
    rw [openV2, RubyM.bind_assoc, RubyM.bind_run_ok () _ requireClosedDb_new, RubyM.bind_assoc,
      RubyM.lift_bind, RubyM.bind_assoc]
    refine RubyM.lift_bind_congr fun flags => ?_
    rw [RubyM.bind_assoc, RubyM.lift_bind, RubyM.bind_assoc]
    refine RubyM.lift_bind_congr fun text' => ?_
    rw [RubyM.bind_assoc, RubyM.lift_bind, RubyM.bind_assoc]
    refine RubyM.lift_bind_congr fun vfs => ?_
    rw [RubyM.bind_assoc]
    change _ = (sqlite3Open sqlite (.openV2 text' flags vfs) >>= _) {}
    refine congrFun (congrArg (sqlite3Open sqlite (.openV2 text' flags vfs) >>= ·) ?_) {}
    funext u st
    cases hstrict : options.strict <;> by_cases hflags : flags % 2 = 1 <;>
      simp [Request.settle, hstrict, hflags]
    all_goals rfl

theorem Request.settle_requests (request : Request) (options : Options) (st : State) :
    (request.settle options st).requests = st.requests := by
  cases request with
  | open16 file => rfl
  | openV2 file flags zvfs =>
      simp only [settle]
      split <;> split <;> rfl

theorem connect_settle (request : Request) (options : Options) :
    IsOpen (request.settle options (State.connect {} request)) ∧
      NotLoading (request.settle options (State.connect {} request)) := by
  have hopen {st : State} {c : Connection} (hc : st.connections = [some c])
      (hloading : c.loadsExtensions = false) (hdb : st.db = some 0) :
      IsOpen st ∧ NotLoading st := ⟨⟨c, hc, hdb⟩, by simp [NotLoading, hc, hloading]⟩
  cases request with
  | open16 file => exact hopen rfl rfl rfl
  | openV2 file flags zvfs =>
      simp only [Request.settle]
      split <;> split <;> exact hopen rfl rfl rfl

/-- SQLite opens the file. -/
theorem openFile_opened {request : Request} {mode : Mode}
    (h : openRequest host file options zvfs = .ok (request, mode))
    (hanswer : sqlite.answer request = .opened) :
    openFile host sqlite file options zvfs {} =
      (.ok mode, request.settle options (State.connect {} request)) := by
  have hrun : sqlite3Open sqlite request {} = (.ok (), State.connect {} request) := by
    change (match sqlite.answer request with
      | .opened => pure ()
      | .failed status errmsg => _ : OpenM Unit) _ = _
    rw [hanswer]
    rfl
  rw [openFile_eq, h, RubyM.lift_ok_bind, RubyM.bind_run_ok () _ hrun]
  rfl

/-- SQLite does not open the file, whose connection is closed again. -/
theorem openFile_failed {request : Request} {mode : Mode}
    (h : openRequest host file options zvfs = .ok (request, mode))
    (hanswer : sqlite.answer request ≠ .opened) :
    ∃ e, openFile host sqlite file options zvfs {} =
      (.raise e, (State.connect {} request).disconnect) := by
  cases hfailed : sqlite.answer request with
  | opened => exact absurd hfailed hanswer
  | failed status errmsg =>
      obtain ⟨e, he, -⟩ := check_errorStatus status errmsg
      have hrun : sqlite3Open sqlite request {} =
          (.raise e, (State.connect {} request).disconnect) := by
        change (match sqlite.answer request with
          | .opened => pure ()
          | .failed status errmsg => _ : OpenM Unit) _ = _
        rw [hfailed]
        change (check status.1 errmsg, _) = _
        rw [he]
      rw [openFile_eq, h, RubyM.lift_ok_bind, RubyM.bind_run_raise _ hrun]
      exact ⟨e, rfl⟩

/-- The call that the arguments ask for is the one that is made. -/
theorem openFile_requests {request : Request} {mode : Mode}
    (h : openRequest host file options zvfs = .ok (request, mode)) :
    (openFile host sqlite file options zvfs {}).2.requests = [request] := by
  by_cases hanswer : sqlite.answer request = .opened
  · rw [openFile_opened h hanswer]
    exact request.settle_requests options _
  · obtain ⟨e, hrun⟩ := openFile_failed h hanswer
    rw [hrun]
    rfl

theorem openFile_not_opened
    (h : ∀ request mode, openRequest host file options zvfs = .ok (request, mode) →
      sqlite.answer request ≠ .opened) :
    ¬ (openFile host sqlite file options zvfs {}).1.Returns ∧
      ∀ c ∈ (openFile host sqlite file options zvfs {}).2.connections, c = none := by
  cases hrequest : openRequest host file options zvfs with
  | ok rm =>
      obtain ⟨e, hrun⟩ := openFile_failed hrequest (h rm.1 rm.2 hrequest)
      rw [hrun]
      exact ⟨Outcome.not_returns_raise e, by simp [State.connect, State.disconnect]⟩
  | raise e =>
      rw [openFile_eq, hrequest]
      exact ⟨Outcome.not_returns_raise e, fun _ hc => absurd hc List.not_mem_nil⟩
  | jump tag =>
      rw [openFile_eq, hrequest]
      exact ⟨Outcome.not_returns_jump tag, fun _ hc => absurd hc List.not_mem_nil⟩

/-! ## Extensions -/

theorem IsOpen.notLoading_configure {st : State} (h : IsOpen st) :
    NotLoading (st.configure fun c => { c with loadsExtensions := false }) := by
  obtain ⟨c, hc, hdb⟩ := h
  simp [NotLoading, State.configure, hc, hdb]

theorem IsOpen.requireOpenDb {st : State} (h : IsOpen st) : requireOpenDb st = (.ok (), st) := by
  obtain ⟨c, -, hdb⟩ := h
  rw [Opening.requireOpenDb, RubyM.get_bind, hdb]
  rfl

/-- What `enable_load_extension` does to an open connection. -/
theorem enableLoadExtension_cases (sqlite : Sqlite) {st : State} (h : IsOpen st) (onoff : Bool) :
    (Switches sqlite onoff ∧ enableLoadExtension sqlite onoff st =
        (.ok (), st.configure fun c => { c with loadsExtensions := onoff })) ∨
      (¬ Switches sqlite onoff ∧ ∃ e, enableLoadExtension sqlite onoff st = (.raise e, st)) := by
  unfold enableLoadExtension
  cases henable : sqlite.enableLoadExtension with
  | none =>
      refine .inr ⟨?_, _, rfl⟩
      rintro ⟨enable, h', -⟩
      cases henable.symm.trans h'
  | some enable =>
      change (_ ∧ (requireOpenDb >>= _) st = _) ∨
        (_ ∧ ∃ e, (requireOpenDb >>= _) st = (.raise e, st))
      rw [RubyM.bind_run_ok () _ h.requireOpenDb]
      cases hanswer : enable onoff with
      | none => exact .inl ⟨⟨enable, henable, hanswer⟩, rfl⟩
      | some status =>
          obtain ⟨e, he, -⟩ := check_errorStatus status sqlite.errmsg
          refine .inr ⟨?_, e, ?_⟩
          · rintro ⟨enable', h', hanswer'⟩
            obtain rfl := Option.some.inj (henable.symm.trans h')
            cases hanswer.symm.trans hanswer'
          · change (check status.1 sqlite.errmsg, st) = _
            rw [he]

theorem loadExtension_run {st : State} (h : IsOpen st) (specifier : Specifier) :
    loadExtension sqlite specifier st = (do
      let file ← specifier.file
      let text ← stringValuePtr file
      check (sqlite.loadExtension text).1 (sqlite.loadExtension text).2, st) := by
  rw [loadExtension]
  cases specifier.file with
  | raise e => rfl
  | jump tag => rfl
  | ok file =>
      rw [RubyM.lift_ok_bind, RubyM.bind_run_ok () _ h.requireOpenDb, Outcome.ok_bind]
      cases stringValuePtr file <;> rfl

theorem loadExtension_returns_iff (sqlite : Sqlite) {st : State} (h : IsOpen st)
    (specifier : Specifier) :
    (loadExtension sqlite specifier st).1.Returns ↔ Loads sqlite specifier := by
  have hcheck (text : List UInt8) :
      (check (sqlite.loadExtension text).1 (sqlite.loadExtension text).2).Returns ↔
        (sqlite.loadExtension text).1 % 256 = 0 :=
    ⟨fun ⟨_, hok⟩ => (check_eq_ok_iff _ _).mp hok, fun hok => ⟨_, (check_eq_ok_iff _ _).mpr hok⟩⟩
  rw [loadExtension_run h, Outcome.returns_bind_iff, Loads]
  refine exists_congr fun file => ?_
  rw [Outcome.returns_bind_iff, ← exists_and_left]
  exact exists_congr fun text => and_congr_right fun _ => and_congr_right fun _ => hcheck text

/-- The extensions are loaded one after the other, which changes nothing here. -/
theorem loadEach_same (sqlite : Sqlite) (specifiers : List Specifier) :
    ∀ st, IsOpen st → (loadEach sqlite specifiers st).2 = st := by
  induction specifiers with
  | nil => exact fun _ _ => rfl
  | cons specifier specifiers ih =>
      refine RubyM.bind_respects (fun s t => IsOpen s → t = s) ?_ ?_ fun _ => ih
      · intro s t u hst htu hs
        obtain rfl := hst hs
        exact htu hs
      · intro s hs
        rw [loadExtension_run hs]

theorem loadEach_returns_iff (sqlite : Sqlite) {st : State} (h : IsOpen st)
    (specifiers : List Specifier) : (loadEach sqlite specifiers st).1.Returns ↔
      ∀ specifier ∈ specifiers, Loads sqlite specifier := by
  induction specifiers with
  | nil => exact iff_of_true (Outcome.returns_ok ()) (by simp)
  | cons specifier specifiers ih =>
      have hsame : (loadExtension sqlite specifier st).2 = st := by rw [loadExtension_run h]
      rw [List.forall_mem_cons, ← loadExtension_returns_iff sqlite h specifier, ← ih, loadEach,
        RubyM.bind_returns_iff, hsame]
      exact exists_and_right

/-- The part of `initialize_extensions` that its `ensure` watches. -/
def enableAndLoad (sqlite : Sqlite) (specifiers : List Specifier) : OpenM Unit := do
  enableLoadExtension sqlite true
  loadEach sqlite specifiers

theorem enableAndLoad_run (sqlite : Sqlite) {st : State} (h : IsOpen st)
    (specifiers : List Specifier) :
    ((enableAndLoad sqlite specifiers st).1.Returns ↔
        Switches sqlite true ∧ ∀ specifier ∈ specifiers, Loads sqlite specifier) ∧
      IsOpen (enableAndLoad sqlite specifiers st).2 := by
  rw [enableAndLoad]
  obtain ⟨hswitches, hrun⟩ | ⟨hswitches, e, hrun⟩ := enableLoadExtension_cases sqlite h true
  · have hopen := h.configure fun c => { c with loadsExtensions := true }
    rw [RubyM.bind_run_ok () _ hrun, loadEach_returns_iff sqlite hopen,
      loadEach_same sqlite specifiers _ hopen]
    exact ⟨(and_iff_right hswitches).symm, hopen⟩
  · rw [RubyM.bind_run_raise _ hrun]
    exact ⟨iff_of_false (Outcome.not_returns_raise e) fun hand => hswitches hand.1, h⟩

/-- The connection stays open, and loads no extensions afterwards when SQLite switches this
off. -/
theorem initializeExtensions_run (sqlite : Sqlite) {st : State} (h : IsOpen st)
    (extensions : Extensions) :
    ((initializeExtensions sqlite extensions st).1.Returns ↔ ExtensionsLoad sqlite extensions) ∧
      IsOpen (initializeExtensions sqlite extensions st).2 ∧
      (Switches sqlite false → NotLoading st →
        NotLoading (initializeExtensions sqlite extensions st).2) := by
  cases extensions with
  | nil => exact ⟨iff_of_true (Outcome.returns_ok ()) trivial, h, fun _ hst => hst⟩
  | other => exact ⟨iff_of_false (Outcome.not_returns_raise _) id, h, fun _ hst => hst⟩
  | array specifiers =>
      cases specifiers with
      | nil =>
          refine ⟨iff_of_true (Outcome.returns_ok ()) ?_, h, fun _ hst => hst⟩
          exact fun hne => absurd rfl hne
      | cons specifier specifiers =>
          obtain ⟨hreturns, hopen⟩ :=
            enableAndLoad_run sqlite h (specifier :: specifiers)
          have hrun : initializeExtensions sqlite (.array (specifier :: specifiers)) st =
            (enableLoadExtension sqlite false >>= fun _ => RubyM.lift
              (enableAndLoad sqlite (specifier :: specifiers) st).1)
                (enableAndLoad sqlite (specifier :: specifiers) st).2 := rfl
          rcases hload : enableAndLoad sqlite (specifier :: specifiers) st with ⟨o, st'⟩
          rw [hload] at hreturns hopen hrun
          obtain ⟨hswitches, hoff⟩ | ⟨hswitches, e, hoff⟩ :=
            enableLoadExtension_cases sqlite hopen false
          · rw [RubyM.bind_run_ok () _ hoff] at hrun
            rw [hrun]
            refine ⟨hreturns.trans ⟨fun hand _ => ⟨hand.1, hand.2, hswitches⟩, fun hload => ?_⟩,
              hopen.configure _, fun _ _ => hopen.notLoading_configure⟩
            obtain ⟨hon, hall, -⟩ := hload (List.cons_ne_nil _ _)
            exact ⟨hon, hall⟩
          · rw [RubyM.bind_run_raise _ hoff] at hrun
            rw [hrun]
            refine ⟨iff_of_false (Outcome.not_returns_raise e) fun hload => ?_, hopen,
              fun hoff => absurd hoff hswitches⟩
            exact hswitches (hload (List.cons_ne_nil _ _)).2.2

/-! ## A constructor that fails -/

/-- What `initialize` does with an open connection. -/
theorem afterOpen_run (sqlite : Sqlite) {st : State} (h : IsOpen st) (hloading : NotLoading st)
    (mode : Mode) (extensions : Extensions) :
    let r := (RubyM.lift mode.isReadonly >>= fun _ => initializeExtensions sqlite extensions) st
    (r.1.Returns ↔ mode.isReadonly.Returns ∧ ExtensionsLoad sqlite extensions) ∧ IsOpen r.2 ∧
      (Switches sqlite false → NotLoading r.2) := by
  intro r
  obtain ⟨hreturns, hopen, hoff⟩ := initializeExtensions_run sqlite h extensions
  constructor
  · rw [RubyM.bind_returns_iff, ← hreturns]
    exact exists_and_right
  · exact RubyM.final_lift (P := fun st => IsOpen st ∧ (Switches sqlite false → NotLoading st))
      ⟨h, fun _ => hloading⟩ fun _ => ⟨hopen, fun hswitches => hoff hswitches hloading⟩

/-- A constructor that does not return leaves nothing open exactly when, of a file that
SQLite has opened, the mode can be tested and the extensions can be loaded. No connection
loads extensions then, as long as SQLite switches this off. -/
theorem failed_new_clean_iff (host : Host) (sqlite : Sqlite) (file : File) (options : Options)
    (zvfs : Value) :
    ((¬ (databaseInitialize host sqlite file options zvfs {}).1.Returns →
          Clean (databaseInitialize host sqlite file options zvfs {}).2) ↔
        ∀ request mode, openRequest host file options zvfs = .ok (request, mode) →
          sqlite.answer request = .opened →
            mode.isReadonly.Returns ∧ ExtensionsLoad sqlite options.extensions) ∧
      (Switches sqlite false →
        NotLoading (databaseInitialize host sqlite file options zvfs {}).2) := by
  by_cases hopened : ∃ request mode, openRequest host file options zvfs = .ok (request, mode) ∧
      sqlite.answer request = .opened
  · obtain ⟨request, mode, hrequest, hanswer⟩ := hopened
    have hrun := openFile_opened hrequest hanswer
    obtain ⟨hopen, hloading⟩ := connect_settle request options
    have hmode (P : Mode → Prop) :
        (∀ request' mode', openRequest host file options zvfs = .ok (request', mode') →
            sqlite.answer request' = .opened → P mode') ↔ P mode := by
      refine ⟨fun h => h request mode hrequest hanswer, fun h request' mode' hrequest' _ => ?_⟩
      obtain rfl := (Prod.mk.inj (Outcome.ok.inj (hrequest.symm.trans hrequest'))).2
      exact h
    have hnew : databaseInitialize host sqlite file options zvfs {} =
        (RubyM.lift mode.isReadonly >>= fun _ =>
          initializeExtensions sqlite options.extensions)
            (request.settle options (State.connect {} request)) := RubyM.bind_run_ok mode _ hrun
    obtain ⟨hreturns, hstays, hoff⟩ := afterOpen_run sqlite hopen hloading mode options.extensions
    rw [hmode, hnew, ← hreturns]
    refine ⟨⟨fun h => ?_, fun h hnot => absurd h hnot⟩, hoff⟩
    by_contra hnot
    obtain ⟨c, hc, -⟩ := hstays
    have hclosed := (h hnot).closed (some c) (by simp [hc])
    cases hclosed
  · obtain ⟨hnot, hclosed⟩ := openFile_not_opened fun request mode hrequest hanswer =>
      hopened ⟨request, mode, hrequest, hanswer⟩
    have hclean : Clean (openFile host sqlite file options zvfs {}).2 := by
      refine ⟨hclosed, fun c hc => ?_⟩
      cases hclosed _ hc
    have hsame : (databaseInitialize host sqlite file options zvfs {}).2 =
        (openFile host sqlite file options zvfs {}).2 := RubyM.bind_snd_of_not_returns _ hnot
    rw [hsame]
    exact ⟨iff_of_true (fun _ => hclean) fun request mode hrequest hanswer =>
      absurd ⟨request, mode, hrequest, hanswer⟩ hopened, fun _ => hclean.disabled⟩

/-- A SQLite that opens every file and finds no extension. -/
def withoutExtensions : Sqlite :=
  ⟨fun _ => .opened, some fun _ => none, fun _ => (1, "cannot open shared object file"), ""⟩

/-- `extensions: ["x"]`, with no such file. -/
def missingExtension : Options := { extensions := .array [.string ⟨.string, .utf8, [120]⟩] }

/-- The connection is open when the exception for the extension leaves the constructor. -/
theorem missingExtension_stays_open :
    ¬ (¬ (databaseInitialize littleHost withoutExtensions (.name (.string ⟨.string, .utf8, [102]⟩
          false)) missingExtension .nil {}).1.Returns →
        Clean (databaseInitialize littleHost withoutExtensions
          (.name (.string ⟨.string, .utf8, [102]⟩ false)) missingExtension .nil {}).2) := by
  intro h
  have hraises : (databaseInitialize littleHost withoutExtensions (.name (.string ⟨.string, .utf8,
      [102]⟩ false)) missingExtension .nil {}).1 =
        .raise ⟨_, "cannot open shared object file"⟩ := rfl
  have hclosed := (h (by rw [hraises]; exact Outcome.not_returns_raise _)).closed _
    (List.mem_singleton_self _)
  cases hclosed

end Sqlite3Ruby.Opening
