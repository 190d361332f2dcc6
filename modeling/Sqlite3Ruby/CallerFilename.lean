import Sqlite3Ruby.Opening

/-!
# The caller's filename

`utf16_string_value_ptr` ends a name with two bytes in the String object that the
caller has handed in. What `Database.new` does to this object is followed here along
with what it does to the database.
-/

namespace Sqlite3Ruby.Opening

/-- A database, and the String object that its file is named by. -/
abbrev FilenameM := RubyM (State × RString)

section Lifting

variable {α : Type}

/-- Code that does not touch the string. -/
def onDatabase (m : OpenM α) : FilenameM α := fun st => ((m st.1).1, (m st.1).2, st.2)

/-- Code that only touches the string. -/
def onString (m : RubyM RString α) : FilenameM α := fun st => ((m st.2).1, st.1, (m st.2).2)

end Lifting

/-- `rb_str_buf_cat`. -/
def rbStrBufCat (frozen : Bool) (bytes : List UInt8) : RubyM RString Unit :=
  if frozen then RubyM.lift (.raise ⟨FrozenError, "can't modify frozen String"⟩)
  else RubyM.modify fun str => { str with bytes := str.bytes ++ bytes }

section Methods

variable (host : Host) (sqlite : Sqlite) (frozen : Bool) (options : Options) (zvfs : Value)

/-- `utf16_string_value_ptr`. Its checks are made on a copy. -/
def utf16StringValuePtrOf : RubyM RString (List UInt8) := do
  let str ← RubyM.get
  let order := match str.encoding with
    | .utf16 order => order
    | _ => host.byteOrder
  let utf16str : RString := { str with encoding := .utf16 order }
  if utf16str.isBroken then
    RubyM.lift (.raise ⟨.ArgumentError, "invalid byte sequence in " ++ utf16str.encoding.name⟩)
  else if '\x00' ∈ (Utf16.decode (order.ofBytes str.bytes)).getD [] then
    RubyM.lift (.raise ⟨.ArgumentError, "string contains null char"⟩)
  else do
    rbStrBufCat frozen [0, 0]
    let str ← RubyM.get
    pure str.bytes

/-- `open16`. -/
def open16Of : FilenameM Unit := do
  onDatabase requireClosedDb
  let file ← onString (utf16StringValuePtrOf host frozen)
  onDatabase (sqlite3Open sqlite (.open16 file))

/-- The part of `initialize` that opens the file. `encode` makes a new string. -/
def openFileOf : FilenameM Mode := do
  let st ← RubyM.get
  if isUtf16 st.2 options then do
    open16Of host sqlite frozen
    pure .create
  else do
    let mode ← RubyM.lift options.mode
    let text ← RubyM.lift (strEncodeUtf8 host st.2)
    onDatabase (openV2 sqlite text mode zvfs)
    onDatabase (if options.strict then disableQuirkMode else pure ())
    pure mode

/-- `Database#initialize`. -/
def initializeOf : FilenameM Unit := do
  let mode ← openFileOf host sqlite frozen options zvfs
  let _ ← RubyM.lift mode.isReadonly
  onDatabase (initializeExtensions sqlite options.extensions)

/-- The string after one `Database.new` with it. -/
def filenameAfter (s : RString) : RString :=
  (initializeOf host sqlite frozen options zvfs ({}, s)).2.2

/-- How a `Database.new` with the string ends, and what it asks SQLite for. -/
def openWith (s : RString) : Outcome Unit × List Request :=
  let r := initializeOf host sqlite frozen options zvfs ({}, s)
  (r.1, r.2.1.requests)

end Methods

/-! ## The database -/

section Morphism

variable {α β : Type}

theorem onDatabase_bind (m : OpenM α) (f : α → OpenM β) :
    onDatabase (m >>= f) = onDatabase m >>= fun a => onDatabase (f a) := by
  funext st
  rcases hrun : m st.1 with ⟨o, st'⟩
  have hfirst : onDatabase m st = (o, st', st.2) := by rw [onDatabase, hrun]
  cases o with
  | ok a =>
    rw [RubyM.bind_run_ok a _ hfirst]
    simp only [onDatabase, RubyM.bind_run_ok a f hrun]
  | raise e =>
    rw [RubyM.bind_run_raise _ hfirst]
    simp only [onDatabase, RubyM.bind_run_raise f hrun]
  | jump tag =>
    rw [RubyM.bind_run_jump _ hfirst]
    simp only [onDatabase, RubyM.bind_run_jump f hrun]

theorem onDatabase_lift (o : Outcome α) : onDatabase (RubyM.lift o) = RubyM.lift o := rfl

end Morphism

section Runs

variable {host : Host} {sqlite : Sqlite} {frozen : Bool} {options : Options} {zvfs : Value}
  {s : RString}

/-- Two checks, and then the bytes that are added to the string. -/
theorem checks_then_cat (broken nul : Prop) [Decidable broken] [Decidable nul]
    (e e' : RubyException) (frozen : Bool) (s : RString) :
    let o : Outcome (List UInt8) := if broken then .raise e else if nul then .raise e'
      else if frozen then .raise ⟨FrozenError, "can't modify frozen String"⟩
      else .ok (s.bytes ++ [0, 0])
    (if broken then RubyM.lift (.raise e) else if nul then RubyM.lift (.raise e')
      else rbStrBufCat frozen [0, 0] >>= fun _ => RubyM.get >>= fun str => pure str.bytes) s =
      (o, if o.Returns then { s with bytes := s.bytes ++ [0, 0] } else s) := by
  intro o
  by_cases hbroken : broken
  · simp [o, hbroken]
  · by_cases hnul : nul
    · simp [o, hbroken, hnul]
    · cases frozen with
      | true => simp [o, hbroken, hnul, rbStrBufCat]
      | false => simp [o, hbroken, hnul, rbStrBufCat]

/-- The string when `utf16_string_value_ptr` is through with it. -/
theorem utf16StringValuePtrOf_run (host : Host) (frozen : Bool) (s : RString) :
    utf16StringValuePtrOf host frozen s =
      (utf16StringValuePtr host s frozen,
        if (utf16StringValuePtr host s frozen).Returns then { s with bytes := s.bytes ++ [0, 0] }
        else s) :=
  checks_then_cat _ _ _ _ frozen s

/-- A name that is not in UTF-16 is only read. -/
theorem openFileOf_utf8 (hutf16 : isUtf16 s options = false) (st : State) :
    openFileOf host sqlite frozen options zvfs (st, s) =
      onDatabase (openFile host sqlite (.name (.string s frozen)) options zvfs) (st, s) := by
  have hopen : openFile host sqlite (.name (.string s frozen)) options zvfs =
      RubyM.lift options.mode >>= fun mode => RubyM.lift (strEncodeUtf8 host s) >>= fun text =>
        openV2 sqlite text mode zvfs >>= fun _ =>
          (if options.strict then disableQuirkMode else pure ()) >>= fun _ => pure mode := by
    change (if isUtf16 s options = true then _ else _) = _
    rw [if_neg (by simp [hutf16])]
    cases options.strict <;> rfl
  rw [hopen, openFileOf, RubyM.get_bind, if_neg (by simp [hutf16])]
  simp only [onDatabase_bind, onDatabase_lift]
  rfl

/-- A name in UTF-16 is checked, and then it gets its two bytes. -/
theorem openFileOf_utf16 (hutf16 : isUtf16 s options = true) :
    openFileOf host sqlite frozen options zvfs ({}, s) =
      ((openFile host sqlite (.name (.string s frozen)) options zvfs {}).1,
        (openFile host sqlite (.name (.string s frozen)) options zvfs {}).2,
        (utf16StringValuePtrOf host frozen s).2) := by
  have hopen : openFile host sqlite (.name (.string s frozen)) options zvfs =
      open16 host sqlite s frozen >>= fun _ => pure Mode.create := by
    change (if isUtf16 s options = true then _ else _) = _
    rw [if_pos hutf16]
  have hclosed : onDatabase requireClosedDb ({}, s) = (.ok (), {}, s) := rfl
  rcases hptr : utf16StringValuePtrOf host frozen s with ⟨o, s'⟩
  have ho : utf16StringValuePtr host s frozen = o := by
    rw [utf16StringValuePtrOf_run] at hptr
    exact congrArg Prod.fst hptr
  have hstring : onString (utf16StringValuePtrOf host frozen) ({}, s) = (o, {}, s') := by
    rw [onString, hptr]
  rw [hopen, openFileOf, RubyM.get_bind, if_pos hutf16, open16Of, open16, RubyM.bind_assoc,
    RubyM.bind_run_ok () _ hclosed, RubyM.bind_assoc, RubyM.bind_assoc,
    RubyM.bind_run_ok () _ requireClosedDb_new, RubyM.bind_assoc, ho]
  cases o with
  | ok file =>
    rw [RubyM.bind_run_ok file _ hstring, RubyM.lift_ok_bind]
    exact congrFun (onDatabase_bind (sqlite3Open sqlite (.open16 file))
      fun _ => pure Mode.create).symm ({}, s')
  | raise e => rw [RubyM.bind_run_raise _ hstring, RubyM.lift_raise_bind]
  | jump tag => rw [RubyM.bind_run_jump _ hstring, RubyM.lift_jump_bind]

/-- The string when the constructor is through with it. -/
def stringAfter (host : Host) (frozen : Bool) (options : Options) (s : RString) : RString :=
  if isUtf16 s options then (utf16StringValuePtrOf host frozen s).2 else s

/-- The database is as it was without regard to the string, which is only changed
where the file is opened. -/
theorem initializeOf_eq (host : Host) (sqlite : Sqlite) (frozen : Bool) (options : Options)
    (zvfs : Value) (s : RString) :
    initializeOf host sqlite frozen options zvfs ({}, s) =
      ((databaseInitialize host sqlite (.name (.string s frozen)) options zvfs {}).1,
        (databaseInitialize host sqlite (.name (.string s frozen)) options zvfs {}).2,
        stringAfter host frozen options s) := by
  have hopen : openFileOf host sqlite frozen options zvfs ({}, s) =
      ((openFile host sqlite (.name (.string s frozen)) options zvfs {}).1,
        (openFile host sqlite (.name (.string s frozen)) options zvfs {}).2,
        stringAfter host frozen options s) := by
    rw [stringAfter]
    cases hutf16 : isUtf16 s options with
    | false =>
      rw [openFileOf_utf8 hutf16]
      rfl
    | true =>
      rw [openFileOf_utf16 hutf16]
      rfl
  rw [initializeOf, databaseInitialize]
  rcases hrun : openFile host sqlite (.name (.string s frozen)) options zvfs {} with ⟨o, st⟩
  rw [hrun] at hopen
  cases o with
  | ok mode =>
    rw [RubyM.bind_run_ok mode _ hopen, RubyM.bind_run_ok mode _ hrun]
    exact congrFun (onDatabase_bind (RubyM.lift mode.isReadonly) fun _ =>
      initializeExtensions sqlite options.extensions).symm (st, stringAfter host frozen options s)
  | raise e => rw [RubyM.bind_run_raise _ hopen, RubyM.bind_run_raise _ hrun]
  | jump tag => rw [RubyM.bind_run_jump _ hopen, RubyM.bind_run_jump _ hrun]

/-! ## Names in UTF-16 -/

/-- The bytes of a text without NUL, in the byte order of the tag, or in that of the host
if there is none. -/
def IsUtf16Name (host : Host) (s : RString) : Prop :=
  ∃ order cs, (s.encoding = .utf16 order ∨ (∀ tag, s.encoding ≠ .utf16 tag) ∧
    order = host.byteOrder) ∧ '\x00' ∉ cs ∧ s.bytes = order.toBytes (Utf16.encode cs)

/-- The byte order that a name is read in. -/
def nameOrder (host : Host) (s : RString) : Utf16.ByteOrder :=
  match s.encoding with
  | .utf16 order => order
  | _ => host.byteOrder

theorem nameOrder_eq_iff {order : Utf16.ByteOrder} :
    nameOrder host s = order ↔ s.encoding = .utf16 order ∨
      (∀ tag, s.encoding ≠ .utf16 tag) ∧ order = host.byteOrder := by
  rw [nameOrder]
  cases s.encoding with
  | utf16 tag => simp
  | ascii8bit => simp [eq_comm]
  | utf8 => simp [eq_comm]
  | usAscii => simp [eq_comm]
  | other index => simp [eq_comm]

theorem isUtf16Name_iff : IsUtf16Name host s ↔
    ∃ cs, '\x00' ∉ cs ∧ s.bytes = (nameOrder host s).toBytes (Utf16.encode cs) := by
  constructor
  · rintro ⟨order, cs, horder, hnul, hbytes⟩
    obtain rfl := nameOrder_eq_iff.mpr horder
    exact ⟨cs, hnul, hbytes⟩
  · rintro ⟨cs, hnul, hbytes⟩
    exact ⟨nameOrder host s, cs, nameOrder_eq_iff.mp rfl, hnul, hbytes⟩

/-- The checks, one after the other. -/
theorem utf16StringValuePtr_checks (host : Host) (s : RString) (frozen : Bool) :
    utf16StringValuePtr host s frozen =
      if s.bytes.length % 2 = 1 ∨ Utf16.decode ((nameOrder host s).ofBytes s.bytes) = none then
        .raise ⟨.ArgumentError, "invalid byte sequence in " ++
          (Encoding.utf16 (nameOrder host s)).name⟩
      else if '\x00' ∈ (Utf16.decode ((nameOrder host s).ofBytes s.bytes)).getD [] then
        .raise ⟨.ArgumentError, "string contains null char"⟩
      else if frozen then .raise ⟨FrozenError, "can't modify frozen String"⟩
      else .ok (s.bytes ++ [0, 0]) := by
  rw [utf16StringValuePtr]
  congr 1
  simp only [RString.isBroken, Bool.or_eq_true, decide_eq_true_eq, Option.isNone_iff_eq_none]
  rfl

theorem utf16StringValuePtr_name (h : IsUtf16Name host s) (frozen : Bool) :
    utf16StringValuePtr host s frozen =
      if frozen then .raise ⟨FrozenError, "can't modify frozen String"⟩
      else .ok (s.bytes ++ [0, 0]) := by
  obtain ⟨cs, hnul, hbytes⟩ := isUtf16Name_iff.mp h
  have hdecode : Utf16.decode ((nameOrder host s).ofBytes s.bytes) = some cs := by
    rw [hbytes, Utf16.ofBytes_toBytes, Utf16.decode_encode]
  have heven : s.bytes.length % 2 = 0 := by
    rw [hbytes, Utf16.toBytes_length]
    omega
  rw [utf16StringValuePtr_checks, hdecode, if_neg (by simp [heven]), Option.getD_some, if_neg hnul]

/-- What is not such a name raises before it is of interest whether it is frozen. -/
theorem utf16StringValuePtr_not_name (h : ¬ IsUtf16Name host s) :
    ∃ e, ∀ frozen, utf16StringValuePtr host s frozen = .raise e := by
  simp only [utf16StringValuePtr_checks]
  split_ifs with hbroken hnul
  · exact ⟨_, fun _ => rfl⟩
  · exact ⟨_, fun _ => rfl⟩
  · exfalso
    push Not at hbroken
    obtain ⟨cs, hcs⟩ := Option.ne_none_iff_exists'.mp hbroken.2
    rw [hcs] at hnul
    apply h
    rw [isUtf16Name_iff]
    refine ⟨cs, hnul, ?_⟩
    rw [Utf16.encode_decode hcs, Utf16.toBytes_ofBytes _ (by omega)]

/-- A string passes the checks when it is not frozen and is such a name. -/
theorem utf16StringValuePtr_returns_iff :
    (utf16StringValuePtr host s frozen).Returns ↔ frozen = false ∧ IsUtf16Name host s := by
  by_cases hname : IsUtf16Name host s
  · rw [utf16StringValuePtr_name hname]
    cases frozen <;> simp [hname]
  · obtain ⟨e, hraise⟩ := utf16StringValuePtr_not_name hname
    rw [hraise]
    simp [hname]

/-! ## The caller's string -/

/-- `Database.new` leaves the string as it was, each time it is used; it opens the
same file each time, and a frozen string like one that is not. -/
structure LeavesFilename (host : Host) (sqlite : Sqlite) (options : Options) (zvfs : Value)
    (s : RString) : Prop where
  untouched : ∀ frozen, filenameAfter host sqlite frozen options zvfs s = s
  reopened : ∀ frozen n,
    openWith host sqlite frozen options zvfs ((filenameAfter host sqlite frozen options zvfs)^[n] s) =
      openWith host sqlite frozen options zvfs s
  frozen : openWith host sqlite true options zvfs s = openWith host sqlite false options zvfs s

theorem filenameAfter_eq (host : Host) (sqlite : Sqlite) (frozen : Bool) (options : Options)
    (zvfs : Value) (s : RString) :
    filenameAfter host sqlite frozen options zvfs s = stringAfter host frozen options s := by
  rw [filenameAfter, initializeOf_eq]

/-- The string keeps its bytes, unless it is read as UTF-16 and passes the checks. -/
theorem stringAfter_eq_self_iff : stringAfter host frozen options s = s ↔
    ¬ (isUtf16 s options = true ∧ (utf16StringValuePtr host s frozen).Returns) := by
  have hlonger : ({ s with bytes := s.bytes ++ [0, 0] } : RString) ≠ s := by
    intro heq
    have hbytes := congrArg RString.bytes heq
    simp at hbytes
  rw [stringAfter, utf16StringValuePtrOf_run]
  cases hutf16 : isUtf16 s options with
  | false => simp
  | true =>
    by_cases hreturns : (utf16StringValuePtr host s frozen).Returns
    · simp [hreturns, hlonger]
    · simp [hreturns]

/-- A name that does not get the two bytes may as well be frozen. -/
theorem openFile_frozen (sqlite : Sqlite) (zvfs : Value)
    (h : ¬ (isUtf16 s options = true ∧ IsUtf16Name host s)) (frozen : Bool) :
    openFile host sqlite (.name (.string s frozen)) options zvfs =
      openFile host sqlite (.name (.string s false)) options zvfs := by
  change (if isUtf16 s options = true then _ else _) = if isUtf16 s options = true then _ else _
  cases hutf16 : isUtf16 s options with
  | false => rfl
  | true =>
    obtain ⟨e, hraise⟩ := utf16StringValuePtr_not_name fun hname => h ⟨hutf16, hname⟩
    simp only [if_true, open16, hraise]

/-- The constructor leaves the caller's string alone, unless it opens it as UTF-16 and
nothing is wrong with it. -/
theorem leavesFilename_iff :
    LeavesFilename host sqlite options zvfs s ↔
      ¬ (isUtf16 s options = true ∧ IsUtf16Name host s) := by
  constructor
  · rintro ⟨huntouched, -, -⟩ ⟨hutf16, hname⟩
    have hkept := huntouched false
    rw [filenameAfter_eq, stringAfter_eq_self_iff] at hkept
    exact hkept ⟨hutf16, utf16StringValuePtr_returns_iff.mpr ⟨rfl, hname⟩⟩
  · intro hplain
    have huntouched : ∀ frozen, filenameAfter host sqlite frozen options zvfs s = s := by
      intro frozen
      rw [filenameAfter_eq, stringAfter_eq_self_iff, utf16StringValuePtr_returns_iff]
      rintro ⟨hutf16, -, hname⟩
      exact hplain ⟨hutf16, hname⟩
    refine ⟨huntouched, fun frozen n => ?_, ?_⟩
    · rw [Function.iterate_fixed (huntouched frozen) n]
    · have hopen := openFile_frozen sqlite zvfs hplain true
      simp only [openWith, initializeOf_eq, databaseInitialize, hopen]

end Runs

/-- The name `f` in UTF-16LE, which is two bytes longer afterwards. -/
theorem utf16_filename_longer :
    ¬ ∀ (host : Host) (sqlite : Sqlite) (options : Options) (zvfs : Value) (s : RString),
      LeavesFilename host sqlite options zvfs s := by
  intro hclaim
  have hname : IsUtf16Name littleHost ⟨.string, .utf16 .little, [102, 0]⟩ :=
    ⟨.little, ['f'], Or.inl rfl, by decide, rfl⟩
  have huntouched := (hclaim littleHost withoutExtensions {} .nil
    ⟨.string, .utf16 .little, [102, 0]⟩).untouched false
  rw [filenameAfter_eq, stringAfter_eq_self_iff, utf16StringValuePtr_returns_iff] at huntouched
  exact huntouched ⟨rfl, rfl, hname⟩

end Sqlite3Ruby.Opening
