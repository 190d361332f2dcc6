import Sqlite3Ruby.PragmaSetters
import Sqlite3Ruby.Quoting

/-!
# The statements of the pragma setters

Every setter of a pragma puts what it is given into the text of a statement. Whether that
text is the assignment it is meant to be is seen from its tokens.

## Implementation notes

`set_boolean_pragma` compares an object with 1 and 0, and `set_int_pragma` takes what `to_i`
returns to be an Integer. The setters of one kind differ in the name of the pragma only.
-/

namespace Sqlite3Ruby.Pragmas

open SqlLexer

/-- The mode of a boolean pragma. -/
inductive Switch
  | nil
  | true_
  | false_
  | string (text inspect : List Char)
  | other (isOne isZero : Bool) (inspect : List Char)

def Switch.inspect : Switch → List Char
  | nil => "nil".toList
  | true_ => "true".toList
  | false_ => "false".toList
  | string _ inspect => inspect
  | other _ _ inspect => inspect

/-- The strings that are true. -/
def onNames : List (List Char) :=
  ["on".toList, "yes".toList, "true".toList, "y".toList, "t".toList]

/-- The strings that are false. -/
def offNames : List (List Char) :=
  ["off".toList, "no".toList, "false".toList, "n".toList, "f".toList]

/-- `ON` or `OFF`. -/
def flagText : Bool → List Char
  | true => "ON".toList
  | false => "OFF".toList

/-- The truth that a mode represents. -/
inductive Switch.Represents (L : LowerCase) : Switch → Bool → Prop
  | nil : Represents L .nil false
  | true_ : Represents L .true_ true
  | false_ : Represents L .false_ false
  | on {text inspect} (h : L.downcase text ∈ onNames) : Represents L (.string text inspect) true
  | off {text inspect} (h : L.downcase text ∈ offNames) : Represents L (.string text inspect) false
  | one {isZero inspect} : Represents L (.other true isZero inspect) true
  | zero {inspect} : Represents L (.other false true inspect) false

section Methods

variable (L : LowerCase) {Rows : Type} (answer : List Char → Outcome Rows)

/-- The `case` of `set_boolean_pragma`. -/
def switchText : Switch → Option (List Char)
  | .string text _ =>
    if L.downcase text ∈ onNames then some "'ON'".toList
    else if L.downcase text ∈ offNames then some "'OFF'".toList
    else none
  | .true_ => some "ON".toList
  | .false_ | .nil => some "OFF".toList
  | .other isOne isZero _ =>
    if isOne then some "ON".toList else if isZero then some "OFF".toList else none

/-- `set_boolean_pragma`. -/
def setBooleanPragma (name : List Char) (mode : Switch) : PragmaM Rows :=
  match switchText L mode with
  | some text => execute answer (assign name text)
  | none => RubyM.lift (.raise ⟨.SQLite3Exception,
      String.ofList ("unrecognized pragma parameter ".toList ++ mode.inspect)⟩)

/-- `set_int_pragma`, of an object with this `to_i`. -/
def setIntPragma (name : List Char) (toI : Outcome Int) : PragmaM Rows := do
  let n ← RubyM.lift toI
  execute answer (assign name (toString n).toList)

/-- `optimize`. -/
def optimize (bitmask : Option (Outcome Int)) : PragmaM Rows :=
  match bitmask with
  | some toI => setIntPragma answer "optimize".toList toI
  | none => execute answer "PRAGMA optimize".toList

end Methods

/-! ## The setters -/

/-- The setters of boolean pragmas. -/
inductive BooleanSetter
  | automaticIndex
  | cacheSpill
  | caseSensitiveLike
  | cellSizeCheck
  | checkpointFullfsync
  | countChanges
  | deferForeignKeys
  | foreignKeys
  | fullColumnNames
  | fullfsync
  | ignoreCheckConstraints
  | legacyFileFormat
  | parserTrace
  | queryOnly
  | readUncommitted
  | recursiveTriggers
  | reverseUnorderedSelects
  | secureDelete
  | shortColumnNames
  | vdbeAddoptrace
  | vdbeDebug
  | vdbeListing
  | vdbeTrace
  | writableSchema

def BooleanSetter.pragma : BooleanSetter → String
  | automaticIndex => "automatic_index"
  | cacheSpill => "cache_spill"
  | caseSensitiveLike => "case_sensitive_like"
  | cellSizeCheck => "cell_size_check"
  | checkpointFullfsync => "checkpoint_fullfsync"
  | countChanges => "count_changes"
  | deferForeignKeys => "defer_foreign_keys"
  | foreignKeys => "foreign_keys"
  | fullColumnNames => "full_column_names"
  | fullfsync => "fullfsync"
  | ignoreCheckConstraints => "ignore_check_constraints"
  | legacyFileFormat => "legacy_file_format"
  | parserTrace => "parser_trace"
  | queryOnly => "query_only"
  | readUncommitted => "read_uncommitted"
  | recursiveTriggers => "recursive_triggers"
  | reverseUnorderedSelects => "reverse_unordered_selects"
  | secureDelete => "secure_delete"
  | shortColumnNames => "short_column_names"
  | vdbeAddoptrace => "vdbe_addoptrace"
  | vdbeDebug => "vdbe_debug"
  | vdbeListing => "vdbe_listing"
  | vdbeTrace => "vdbe_trace"
  | writableSchema => "writable_schema"

/-- The setters of pragmas with an integer. -/
inductive IntSetter
  | applicationId
  | busyTimeout
  | cacheSize
  | defaultCacheSize
  | journalSizeLimit
  | maxPageCount
  | mmapSize
  | pageSize
  | schemaCookie
  | schemaVersion
  | softHeapLimit
  | threads
  | userCookie
  | userVersion
  | walAutocheckpoint

def IntSetter.pragma : IntSetter → String
  | applicationId => "application_id"
  | busyTimeout => "busy_timeout"
  | cacheSize => "cache_size"
  | defaultCacheSize => "default_cache_size"
  | journalSizeLimit => "journal_size_limit"
  | maxPageCount => "max_page_count"
  | mmapSize => "mmap_size"
  | pageSize => "page_size"
  | schemaCookie => "schema_cookie"
  | schemaVersion => "schema_version"
  | softHeapLimit => "soft_heap_limit"
  | threads => "threads"
  | userCookie => "user_cookie"
  | userVersion => "user_version"
  | walAutocheckpoint => "wal_autocheckpoint"

/-- A call of one of the setters. -/
inductive SetterCall
  | boolean (setter : BooleanSetter) (mode : Switch)
  | int (setter : IntSetter) (toI : Outcome Int)
  | optimize (bitmask : Option (Outcome Int))
  | enum (setter : Setter) (mode : Argument)

namespace SetterCall

def run (L : LowerCase) {Rows : Type} (answer : List Char → Outcome Rows) :
    SetterCall → PragmaM Rows
  | boolean setter mode => setBooleanPragma L answer setter.pragma.toList mode
  | int setter toI => setIntPragma answer setter.pragma.toList toI
  | optimize bitmask => Pragmas.optimize answer bitmask
  | enum setter mode => setter.run L answer mode

/-- An integer, with its sign apart. -/
def integerTokens (n : Int) : List Token :=
  if n < 0 then [.operator ['-'], .number n.natAbs.repr.toList] else [.number n.natAbs.repr.toList]

/-- The value that an enumeration has for a mode: a string is the name of one, and another
object is one itself, where the setter takes it. -/
inductive Chooses (L : LowerCase) (setter : Setter) : Argument → Argument → Prop
  | named {mode value} (hstring : mode.isString = true)
      (h : (L.downcase mode.text, value) ∈ (setter.modes L).entries) : Chooses L setter mode value
  | itself {mode} (hother : mode.isString = false) (htruthy : mode.truthy = true)
      (hchecked : setter.viaString = true →
        ∃ value, (L.downcase mode.text, value) ∈ (setter.modes L).entries) :
      Chooses L setter mode mode

/-- What a call means: an assignment to its pragma of `ON` or `OFF`, as the mode represents
truth, of the integer, or of the text of what the mode chooses; or the pragma alone. -/
inductive Means (L : LowerCase) : SetterCall → List Token → Prop
  | boolean {setter mode b value} (hmode : mode.Represents L b)
      (hvalue : value = .word (flagText b) ∨ value = .string (flagText b)) :
      Means L (.boolean setter mode)
        [.word "PRAGMA".toList, .word setter.pragma.toList, .operator ['='], value]
  | int {setter n} :
      Means L (.int setter (.ok n))
        (.word "PRAGMA".toList :: .word setter.pragma.toList :: .operator ['='] ::
          integerTokens n)
  | optimize {n} :
      Means L (.optimize (some (.ok n)))
        (.word "PRAGMA".toList :: .word "optimize".toList :: .operator ['='] :: integerTokens n)
  | optimizeAll : Means L (.optimize none) [.word "PRAGMA".toList, .word "optimize".toList]
  | enum {setter mode value} (h : Chooses L setter mode value) :
      Means L (.enum setter mode)
        [.word "PRAGMA".toList, .word setter.pragma.toList, .operator ['='], .string value.text]

/-- What the setter of an enumeration does not check itself: an object that is no string, given
to one that is not built on `set_string_pragma`. -/
def IsPlain : SetterCall → Prop
  | enum setter mode =>
    setter.viaString = true ∨ mode.isString = true ∨ mode.truthy = false ∨ Bare mode.text
  | _ => True

/-- The call executes one statement, which means what the call does; or it means nothing, and
executes nothing and raises. -/
def IsAssignment (L : LowerCase) {Rows : Type} (answer : List Char → Outcome Rows)
    (call : SetterCall) (run : Outcome Rows × List (List Char)) : Prop :=
  (∃ sql, run = (answer sql, [sql]) ∧ call.Means L (lex sql)) ∨
    (∀ tokens, ¬ call.Means L tokens) ∧ ¬ run.1.Returns ∧ run.2 = []

end SetterCall

/-! ## The tokens of an assignment -/

theorem lex_assign_name {name : List Char} (hname : isName name = true) {c : Char} (hc : c ≠ '=')
    (rest : List Char) :
    lex (assign name (c :: rest)) =
      .word "PRAGMA".toList :: .word name :: .operator ['='] :: lex (c :: rest) := by
  have hlex := lex_assign (pragmaName name hname) hc rest
  rw [pragmaName_text, pragmaName_tokens] at hlex
  exact hlex

theorem lex_natural (n : Nat) :
    ∃ c rest, n.repr.toList = c :: rest ∧ c.isDigit = true ∧ lex (c :: rest) = [.number (c :: rest)] := by
  have hdigits : ∀ c ∈ n.repr.toList, c.isDigit = true := by
    intro c hc
    rw [Nat.toList_repr] at hc
    exact Nat.isDigit_of_mem_toDigits (by decide) (by decide) hc
  cases hrepr : n.repr.toList with
  | nil =>
    rw [Nat.toList_repr] at hrepr
    exact absurd hrepr Nat.toDigits_ne_nil
  | cons c rest =>
    rw [hrepr] at hdigits
    exact ⟨c, rest, rfl, hdigits c List.mem_cons_self, lex_digits hdigits⟩

theorem lex_integer (n : Int) :
    ∃ c rest, (toString n).toList = c :: rest ∧ c ≠ '=' ∧
      lex (c :: rest) = SetterCall.integerTokens n := by
  obtain ⟨c, rest, hrepr, hdigit, hlex⟩ := lex_natural n.natAbs
  have hother (d : Char) (hd : d.isDigit = false) : c ≠ d := by
    rintro rfl
    exact Bool.false_ne_true (hd.symm.trans hdigit)
  cases n with
  | ofNat m =>
    have hnonneg : ¬ Int.ofNat m < 0 := Int.not_lt.mpr (Int.natCast_nonneg m)
    refine ⟨c, rest, hrepr, hother '=' rfl, ?_⟩
    rw [hlex, SetterCall.integerTokens, if_neg hnonneg, hrepr]
  | negSucc m =>
    refine ⟨'-', c :: rest, ?_, by decide, ?_⟩
    · change ("-" ++ Nat.repr m.succ).toList = _
      rw [String.toList_append]
      exact congrArg ('-' :: ·) hrepr
    · rw [lex_minus (hother '-' rfl) (hother '>' rfl), hlex, SetterCall.integerTokens,
        if_pos (Int.negSucc_lt_zero m), hrepr]

/-! ## Each kind of setter -/

theorem BooleanSetter.isName_pragma (setter : BooleanSetter) :
    isName setter.pragma.toList = true := by
  cases setter <;> decide

theorem IntSetter.isName_pragma (setter : IntSetter) : isName setter.pragma.toList = true := by
  cases setter <;> decide

section Calls

variable {L : LowerCase} {Rows : Type} {answer : List Char → Outcome Rows}

/-- The literal that `set_boolean_pragma` picks. -/
theorem exists_flag_token (b quoted : Bool) :
    ∃ c rest, (if quoted then '\x27' :: (flagText b ++ ['\x27']) else flagText b) = c :: rest ∧
      c ≠ '=' ∧ ∃ value, lex (c :: rest) = [value] ∧
        (value = .word (flagText b) ∨ value = .string (flagText b)) := by
  cases quoted with
  | false =>
    cases b with
    | false => exact ⟨'O', "FF".toList, rfl, by decide, _, rfl, Or.inl rfl⟩
    | true => exact ⟨'O', "N".toList, rfl, by decide, _, rfl, Or.inl rfl⟩
  | true =>
    cases b with
    | false => exact ⟨'\x27', "OFF'".toList, rfl, by decide, _, rfl, Or.inr rfl⟩
    | true => exact ⟨'\x27', "ON'".toList, rfl, by decide, _, rfl, Or.inr rfl⟩

/-- The text is that of the truth which the mode represents. -/
theorem switchText_cases (L : LowerCase) (mode : Switch) :
    (∃ (b quoted : Bool), mode.Represents L b ∧ switchText L mode =
      some (if quoted then '\x27' :: (flagText b ++ ['\x27']) else flagText b)) ∨
      (∀ b, ¬ mode.Represents L b) ∧ switchText L mode = none := by
  cases mode with
  | nil => exact Or.inl ⟨false, false, .nil, rfl⟩
  | true_ => exact Or.inl ⟨true, false, .true_, rfl⟩
  | false_ => exact Or.inl ⟨false, false, .false_, rfl⟩
  | string text inspect =>
    rw [switchText]
    by_cases hon : L.downcase text ∈ onNames
    · exact Or.inl ⟨true, true, .on hon, if_pos hon⟩
    · rw [if_neg hon]
      by_cases hoff : L.downcase text ∈ offNames
      · exact Or.inl ⟨false, true, .off hoff, if_pos hoff⟩
      · refine Or.inr ⟨?_, if_neg hoff⟩
        rintro b (_ | _ | _ | h | h)
        · exact hon h
        · exact hoff h
  | other isOne isZero inspect =>
    cases isOne with
    | true => exact Or.inl ⟨true, false, .one, rfl⟩
    | false =>
      cases isZero with
      | true => exact Or.inl ⟨false, false, .zero, rfl⟩
      | false => exact Or.inr ⟨nofun, rfl⟩

theorem boolean_isAssignment (setter : BooleanSetter) (mode : Switch) :
    SetterCall.IsAssignment L answer (.boolean setter mode)
      (setBooleanPragma L answer setter.pragma.toList mode []) := by
  rw [setBooleanPragma]
  obtain ⟨b, quoted, hmode, hswitch⟩ | ⟨hnothing, hswitch⟩ := switchText_cases L mode
  · obtain ⟨c, rest, htext, hc, value, hlex, hvalue⟩ := exists_flag_token b quoted
    rw [hswitch, htext]
    refine Or.inl ⟨_, rfl, ?_⟩
    rw [lex_assign_name setter.isName_pragma hc, hlex]
    exact .boolean hmode hvalue
  · rw [hswitch]
    refine Or.inr ⟨?_, Outcome.not_returns_raise _, rfl⟩
    rintro tokens ⟨hmode, -⟩
    exact hnothing _ hmode

/-- A statement for an Integer, or none for what `to_i` refuses. -/
theorem setIntPragma_run (answer : List Char → Outcome Rows) (name : List Char)
    (toI : Outcome Int) :
    (∃ n, toI = .ok n ∧ setIntPragma answer name toI [] =
      (answer (assign name (toString n).toList), [assign name (toString n).toList])) ∨
      ¬ toI.Returns ∧ ¬ (setIntPragma answer name toI []).1.Returns ∧
        (setIntPragma answer name toI []).2 = [] := by
  cases toI with
  | ok n => exact Or.inl ⟨n, rfl, rfl⟩
  | raise e =>
    exact Or.inr ⟨Outcome.not_returns_raise _, Outcome.not_returns_raise _, rfl⟩
  | jump tag => exact Or.inr ⟨Outcome.not_returns_jump _, Outcome.not_returns_jump _, rfl⟩

theorem lex_assign_integer {name : List Char} (hname : isName name = true) (n : Int) :
    lex (assign name (toString n).toList) =
      .word "PRAGMA".toList :: .word name :: .operator ['='] :: SetterCall.integerTokens n := by
  obtain ⟨c, rest, htext, hc, hlex⟩ := lex_integer n
  rw [htext, lex_assign_name hname hc, hlex]

theorem int_isAssignment (setter : IntSetter) (toI : Outcome Int) :
    SetterCall.IsAssignment L answer (.int setter toI)
      (setIntPragma answer setter.pragma.toList toI []) := by
  obtain ⟨n, rfl, hrun⟩ | ⟨hrefused, hnone⟩ := setIntPragma_run answer setter.pragma.toList toI
  · refine Or.inl ⟨_, hrun, ?_⟩
    rw [lex_assign_integer setter.isName_pragma]
    exact .int
  · refine Or.inr ⟨?_, hnone⟩
    rintro tokens ⟨⟩
    exact hrefused (Outcome.returns_ok _)

theorem optimize_isAssignment (bitmask : Option (Outcome Int)) :
    SetterCall.IsAssignment L answer (.optimize bitmask) (optimize answer bitmask []) := by
  cases bitmask with
  | none =>
    refine Or.inl ⟨_, rfl, ?_⟩
    have hlex : lex "PRAGMA optimize".toList = [.word "PRAGMA".toList, .word "optimize".toList] := by
      decide
    rw [hlex]
    exact .optimizeAll
  | some toI =>
    obtain ⟨n, rfl, hrun⟩ | ⟨hrefused, hnone⟩ := setIntPragma_run answer "optimize".toList toI
    · refine Or.inl ⟨_, hrun, ?_⟩
      rw [lex_assign_integer (by decide)]
      exact .optimize
    · refine Or.inr ⟨?_, hnone⟩
      rintro tokens ⟨⟩
      exact hrefused (Outcome.returns_ok _)

/-! ## Enumerations -/

theorem forall_entries_of_table {P : List Char × Argument → Prop} {modes : EnumHash L}
    {table : List (String × Argument)}
    (hentries : modes.entries = table.map fun entry => (entry.1.toList, entry.2))
    (h : ∀ entry ∈ table, P (entry.1.toList, entry.2)) : ∀ entry ∈ modes.entries, P entry := by
  intro entry hentry
  rw [hentries] at hentry
  obtain ⟨source, hsource, rfl⟩ := List.mem_map.mp hentry
  exact h source hsource

/-- The names and the values of the enumerations are bare, and every value is true. -/
theorem entry_of_mem_entries {setter : Setter} {entry : List Char × Argument}
    (h : entry ∈ (setter.modes L).entries) :
    Bare entry.1 ∧ Bare entry.2.text ∧ entry.2.truthy = true := by
  have hall : ∀ entry ∈ (setter.modes L).entries,
      Bare entry.1 ∧ Bare entry.2.text ∧ entry.2.truthy = true := by
    cases setter <;> exact forall_entries_of_table rfl (by decide)
  exact hall entry h

theorem mem_downcase {text : List Char} {c : Char} (hascii : c.toNat < 128) (hlower : c.toLower = c)
    (h : c ∈ text) : c ∈ L.downcase text := by
  apply List.mem_flatMap.mpr
  refine ⟨c, h, ?_⟩
  rw [L.ascii c hascii, hlower]
  exact List.mem_cons_self

theorem bare_of_downcase {text : List Char} (h : Bare (L.downcase text)) : Bare text :=
  ⟨fun hquote => h.1 (mem_downcase (by decide) (by decide) hquote),
    fun hnul => h.2 (mem_downcase (by decide) (by decide) hnul)⟩

theorem matched_hash_other {modes : EnumHash L} {mode : Argument} (hstring : mode.isString = false) :
    matched mode (.hash modes) = .ok mode := by
  rw [matched, if_neg (by simp [hstring])]

/-- A setter has one choice for a mode, or none. -/
theorem SetterCall.Chooses.unique {setter : Setter} {mode found value : Argument}
    (hfound : SetterCall.Chooses L setter mode found)
    (hvalue : SetterCall.Chooses L setter mode value) : value = found := by
  cases hfound with
  | named hstring hentry =>
    cases hvalue with
    | named _ hentry' =>
      have hmatched := (matched_hash_string hstring).mpr hentry
      exact Outcome.ok.inj (((matched_hash_string hstring).mpr hentry').symm.trans hmatched)
    | itself hother => exact absurd (hother.symm.trans hstring) Bool.false_ne_true
  | itself hother =>
    cases hvalue with
    | named hstring _ => exact absurd (hother.symm.trans hstring) Bool.false_ne_true
    | itself => rfl

/-- `set_enum_pragma` assigns what the mode chooses, if the setter takes such a mode. -/
theorem setEnumPragma_run {setter : Setter} {mode : Argument}
    (hchecked : setter.viaString = true →
      ∃ value, (L.downcase mode.text, value) ∈ (setter.modes L).entries) :
    (∃ found, SetterCall.Chooses L setter mode found ∧
      setEnumPragma answer setter.pragma.toList mode (.hash (setter.modes L)) [] =
        (answer (assignment setter.pragma.toList found.text),
          [assignment setter.pragma.toList found.text])) ∨
      (∀ found, ¬ SetterCall.Chooses L setter mode found) ∧
        ∃ e, setEnumPragma answer setter.pragma.toList mode (.hash (setter.modes L)) [] =
          (.raise e, []) := by
  have hrun {found : Argument} (hmatched : matched mode (.hash (setter.modes L)) = .ok found)
      (htruthy : found.truthy = true) :
      setEnumPragma answer setter.pragma.toList mode (.hash (setter.modes L)) [] =
        (answer (assignment setter.pragma.toList found.text),
          [assignment setter.pragma.toList found.text]) := by
    rw [setEnumPragma, hmatched, RubyM.lift_ok_bind, if_pos htruthy]
    rfl
  cases hstring : mode.isString with
  | true =>
    by_cases hname : ∃ value, (L.downcase mode.text, value) ∈ (setter.modes L).entries
    · obtain ⟨value, hentry⟩ := hname
      exact Or.inl ⟨value, .named hstring hentry,
        hrun ((matched_hash_string hstring).mpr hentry) (entry_of_mem_entries hentry).2.2⟩
    · obtain ⟨e, hmatched, -⟩ := matched_hash_raise hstring hname
      refine Or.inr ⟨?_, e, setEnumPragma_raise hmatched⟩
      rintro found (⟨-, hentry⟩ | ⟨hother⟩)
      · exact hname ⟨found, hentry⟩
      · exact Bool.false_ne_true (hother.symm.trans hstring)
  | false =>
    have hmatched : matched mode (.hash (setter.modes L)) = .ok mode := matched_hash_other hstring
    cases htruthy : mode.truthy with
    | true => exact Or.inl ⟨mode, .itself hstring htruthy hchecked, hrun hmatched htruthy⟩
    | false =>
      refine Or.inr ⟨?_, _, setEnumPragma_not_found hmatched htruthy⟩
      rintro found (⟨hstring'⟩ | ⟨-, htruthy'⟩)
      · exact Bool.false_ne_true (hstring.symm.trans hstring')
      · exact Bool.false_ne_true (htruthy.symm.trans htruthy')

/-- Any of the setters assigns what the mode chooses. -/
theorem Setter.run_cases (answer : List Char → Outcome Rows) (setter : Setter)
    (mode : Argument) :
    (∃ found, SetterCall.Chooses L setter mode found ∧ setter.run L answer mode [] =
      (answer (assignment setter.pragma.toList found.text),
        [assignment setter.pragma.toList found.text])) ∨
      (∀ found, ¬ SetterCall.Chooses L setter mode found) ∧
        ∃ e, setter.run L answer mode [] = (.raise e, []) := by
  have henum : setter.viaString = false → setter.run L answer mode =
      setEnumPragma answer setter.pragma.toList mode (.hash (setter.modes L)) := by
    cases setter <;> first | exact fun _ => rfl | exact fun h => nomatch h
  have hstringPragma : setter.viaString = true → setter.run L answer mode =
      setStringPragma answer setter.pragma.toList mode (setter.modes L) := by
    cases setter <;> first | exact fun _ => rfl | exact fun h => nomatch h
  cases hvia : setter.viaString with
  | false =>
    rw [henum hvia]
    exact setEnumPragma_run fun h => absurd (hvia.symm.trans h) Bool.false_ne_true
  | true =>
    rw [hstringPragma hvia, setStringPragma]
    cases hlookup : (setter.modes L).entries.lookup (L.downcase mode.text) with
    | none =>
      have hunnamed : ¬ ∃ value, (L.downcase mode.text, value) ∈ (setter.modes L).entries := by
        rintro ⟨value, hentry⟩
        have hsome := (lookup_eq_some_iff_mem (setter.modes L).names_nodup).mpr hentry
        cases hlookup.symm.trans hsome
      refine Or.inr ⟨?_, _, rfl⟩
      rintro found (⟨-, hentry⟩ | ⟨-, -, hchecked⟩)
      · exact hunnamed ⟨found, hentry⟩
      · exact hunnamed (hchecked hvia)
    | some value =>
      have hentry := (lookup_eq_some_iff_mem (setter.modes L).names_nodup).mp hlookup
      rw [RubyM.lift_ok_bind]
      exact setEnumPragma_run fun _ => ⟨value, hentry⟩

/-- What is chosen is bare, but for an object that the setter does not check. -/
theorem isPlain_iff_bare {setter : Setter} {mode found : Argument}
    (h : SetterCall.Chooses L setter mode found) :
    (SetterCall.enum setter mode).IsPlain ↔ Bare found.text := by
  rw [SetterCall.IsPlain]
  cases h with
  | named hstring hentry =>
    exact iff_of_true (Or.inr (Or.inl hstring)) (entry_of_mem_entries hentry).2.1
  | itself hother htruthy hchecked =>
    constructor
    · rintro (hvia | hstring | hfalsy | hbare)
      · obtain ⟨value, hentry⟩ := hchecked hvia
        exact bare_of_downcase (entry_of_mem_entries hentry).1
      · exact absurd (hother.symm.trans hstring) Bool.false_ne_true
      · exact absurd (hfalsy.symm.trans htruthy) Bool.false_ne_true
      · exact hbare
    · exact fun hbare => Or.inr (Or.inr (Or.inr hbare))

theorem enum_isAssignment_iff (setter : Setter) (mode : Argument) :
    SetterCall.IsAssignment L answer (.enum setter mode) (setter.run L answer mode []) ↔
      (SetterCall.enum setter mode).IsPlain := by
  obtain ⟨found, hfound, hrun⟩ | ⟨hnothing, e, hrun⟩ := Setter.run_cases answer setter mode
  · rw [hrun, isPlain_iff_bare hfound, ← lex_between_iff]
    have hlex : lex (assignment setter.pragma.toList found.text) =
        .word "PRAGMA".toList :: .word setter.pragma.toList :: .operator ['='] ::
          lex ('\x27' :: (found.text ++ ['\x27'])) := by
      rw [assignment_eq_assign]
      exact lex_assign_name setter.isName_pragma (by decide) _
    constructor
    · rintro (⟨sql, hsql, hmeans⟩ | ⟨-, -, hnone⟩)
      · obtain rfl : assignment setter.pragma.toList found.text = sql :=
          (List.cons.inj (Prod.mk.inj hsql).2).1
        rw [hlex] at hmeans
        generalize lex ('\x27' :: (found.text ++ ['\x27'])) = tokens at hmeans
        cases hmeans with
        | enum h => rw [hfound.unique h]
      · cases hnone
    · intro hliteral
      refine Or.inl ⟨_, rfl, ?_⟩
      rw [hlex, hliteral]
      exact .enum hfound
  · rw [hrun]
    apply iff_of_true
    · refine Or.inr ⟨?_, Outcome.not_returns_raise _, rfl⟩
      intro tokens hmeans
      cases hmeans with
      | enum h => exact hnothing _ h
    · by_contra hplain
      simp only [SetterCall.IsPlain, not_or, Bool.not_eq_true, Bool.not_eq_false] at hplain
      obtain ⟨hvia, hother, htruthy, -⟩ := hplain
      exact hnothing mode (.itself hother htruthy fun h =>
        absurd (hvia.symm.trans h) Bool.false_ne_true)

end Calls

end Sqlite3Ruby.Pragmas
