import Sqlite3Ruby.Quoting

/-!
# Setters with an enumeration

`set_enum_pragma` takes its enumeration as a Hash or as an Array of Arrays.
`set_string_pragma` checks the mode before that. What a setter assigns is what SQLite reads
in its statement.

## Implementation notes

An object is what the setters ask it for: whether it is true, its text and its `inspect`.
The rows of a statement, and how it ends, are left to the database. Of the text that
`execute` is handed, SQLite compiles the first statement only.
-/

namespace Sqlite3Ruby.Pragmas

open SqlLexer
open Query (PragmaName)

/-- The lower case of characters. A letter of ASCII has its own. -/
structure LowerCase where
  lower : Char → List Char
  ascii : ∀ c : Char, c.toNat < 128 → lower c = [c.toLower]

/-- `String#downcase`. -/
def LowerCase.downcase (L : LowerCase) (text : List Char) : List Char := text.flatMap L.lower

/-! ## Objects -/

/-- A mode, or a value of an enumeration, with its `to_s` and its `inspect`. -/
inductive Argument
  | nil
  | false_
  | string (text inspect : List Char)
  | other (text inspect : List Char)

namespace Argument

def truthy : Argument → Bool
  | nil | false_ => false
  | string _ _ | other _ _ => true

/-- `is_a?(String)`. -/
def isString : Argument → Bool
  | string _ _ => true
  | nil | false_ | other _ _ => false

/-- `to_s`. -/
def text : Argument → List Char
  | nil => []
  | false_ => "false".toList
  | string text _ => text
  | other text _ => text

def inspect : Argument → List Char
  | nil => "nil".toList
  | false_ => "false".toList
  | string _ inspect => inspect
  | other _ inspect => inspect

def integer (n : Int) : Argument := other (toString n).toList (toString n).toList

/-- A string without characters that `inspect` escapes. -/
def plain (text : List Char) : Argument := string text ('"' :: text ++ ['"'])

/-- An Array, whose `to_s` is its `inspect`. -/
def array (elements : List Argument) : Argument :=
  let inspected := '[' :: ", ".toList.intercalate (elements.map inspect) ++ [']']
  other inspected inspected

end Argument

/-- A Hash from names in lower case to values. -/
structure EnumHash (L : LowerCase) where
  entries : List (List Char × Argument)
  names_nodup : (entries.map Prod.fst).Nodup
  names_downcased : ∀ entry ∈ entries, L.downcase entry.1 = entry.1

def EnumHash.names {L : LowerCase} (hash : EnumHash L) : List (List Char) :=
  hash.entries.map Prod.fst

/-- The two forms of `enums`. -/
inductive Enums (L : LowerCase)
  | hash (hash : EnumHash L)
  | array (entries : List (List Argument))

/-! ## The setters -/

/-- The texts that were handed to `execute`. -/
abbrev PragmaM := RubyM (List (List Char))

def KeyError : ExceptionClass := .subclass "KeyError" (.subclass "IndexError" .StandardError)

section Methods

variable {L : LowerCase} {Rows : Type} (answer : List Char → Outcome Rows)

def execute (sql : List Char) : PragmaM Rows := do
  RubyM.modify fun executed => executed ++ [sql]
  RubyM.lift (answer sql)

/-- `Hash#fetch`. -/
def EnumHash.fetch (hash : EnumHash L) (name : List Char) : Outcome Argument :=
  match hash.entries.lookup name with
  | some value => .ok value
  | none => .raise ⟨KeyError, "key not found: \"" ++ String.ofList name ++ "\""⟩

/-- `i.to_s.downcase == mode.to_s.downcase`. -/
def sameText (L : LowerCase) (mode i : Argument) : Bool :=
  L.downcase i.text = L.downcase mode.text

/-- `p.find { |i| i.to_s.downcase == mode.to_s.downcase }`, as a condition. -/
def findsIn (L : LowerCase) (mode : Argument) (p : List Argument) : Bool :=
  ((p.find? (sameText L mode)).getD .nil).truthy

/-- `match`. -/
def matched (mode : Argument) : Enums L → Outcome Argument
  | .array entries => .ok (((entries.find? (findsIn L mode)).map Argument.array).getD .nil)
  | .hash hash => if mode.isString then hash.fetch (L.downcase mode.text) else .ok mode

def unrecognized (name : List Char) (mode : Argument) : RubyException :=
  ⟨.SQLite3Exception, String.ofList ("unrecognized ".toList ++ name ++ ' ' :: mode.inspect)⟩

/-- The statement that assigns a text to a pragma. -/
def assignment (name text : List Char) : List Char :=
  "PRAGMA ".toList ++ name ++ "='".toList ++ text ++ ['\x27']

/-- `set_enum_pragma`. -/
def setEnumPragma (name : List Char) (mode : Argument) (enums : Enums L) : PragmaM Rows := do
  let found ← RubyM.lift (matched mode enums)
  if found.truthy then execute answer (assignment name found.text)
  else RubyM.lift (.raise (unrecognized name mode))

/-- `set_string_pragma`. -/
def setStringPragma (pragmaName : List Char) (value : Argument) (validValues : EnumHash L) :
    PragmaM Rows := do
  let _ ← RubyM.lift (match validValues.entries.lookup (L.downcase value.text) with
    | some found => .ok found
    | none => .raise (unrecognized pragmaName value))
  setEnumPragma answer pragmaName value (.hash validValues)

end Methods

/-! ## The enumerations -/

section Setters

variable (L : LowerCase)

/-- A character of ASCII that is its own lower case. -/
def isLower (c : Char) : Bool := c.toNat < 128 && c.toLower = c

theorem downcase_eq_self {L : LowerCase} {text : List Char} (h : text.all isLower = true) :
    L.downcase text = text := by
  induction text with
  | nil => rfl
  | cons c text ih =>
    rw [List.all_cons, Bool.and_eq_true, isLower, Bool.and_eq_true, decide_eq_true_eq,
      decide_eq_true_eq] at h
    obtain ⟨⟨hascii, hlower⟩, hrest⟩ := h
    rw [LowerCase.downcase, List.flatMap_cons, L.ascii c hascii, hlower]
    exact congrArg (c :: ·) (ih hrest)

/-- A Hash whose names are in lower case letters of ASCII. -/
def EnumHash.ofTable (table : List (String × Argument))
    (hnodup : (table.map fun entry => entry.1.toList).Nodup)
    (hlower : (table.all fun entry => entry.1.toList.all isLower) = true) : EnumHash L where
  entries := table.map fun entry => (entry.1.toList, entry.2)
  names_nodup := by
    rw [List.map_map]
    exact hnodup
  names_downcased := by
    intro entry hentry
    obtain ⟨source, hsource, rfl⟩ := List.mem_map.mp hentry
    exact downcase_eq_self (List.all_eq_true.mp hlower source hsource)

/-- A Hash whose names are their own values. -/
def EnumHash.ofNames (names : List String) (hnodup : (names.map String.toList).Nodup)
    (hlower : (names.all fun name => name.toList.all isLower) = true) : EnumHash L :=
  .ofTable L (names.map fun name => (name, .plain name.toList))
    (by rw [List.map_map]; exact hnodup)
    (by rw [List.all_map]; exact hlower)

/-- `SYNCHRONOUS_MODES`. -/
def synchronousModes : EnumHash L :=
  .ofTable L [("full", .integer 2), ("normal", .integer 1), ("off", .integer 0)] (by decide)
    (by decide)

/-- `TEMP_STORE_MODES`. -/
def tempStoreModes : EnumHash L :=
  .ofTable L [("default", .integer 0), ("file", .integer 1), ("memory", .integer 2)] (by decide)
    (by decide)

/-- `AUTO_VACUUM_MODES`. -/
def autoVacuumModes : EnumHash L :=
  .ofTable L [("none", .integer 0), ("full", .integer 1), ("incremental", .integer 2)] (by decide)
    (by decide)

/-- `JOURNAL_MODES`. -/
def journalModes : EnumHash L :=
  .ofNames L ["delete", "truncate", "persist", "memory", "wal", "off"] (by decide) (by decide)

/-- `LOCKING_MODES`. -/
def lockingModes : EnumHash L := .ofNames L ["normal", "exclusive"] (by decide) (by decide)

/-- `ENCODINGS`. -/
def encodings : EnumHash L :=
  .ofNames L ["utf-8", "utf-16", "utf-16le", "utf-16be"] (by decide) (by decide)

/-- `WAL_CHECKPOINTS`. -/
def walCheckpoints : EnumHash L :=
  .ofNames L ["passive", "full", "restart", "truncate"] (by decide) (by decide)

variable {Rows : Type} (answer : List Char → Outcome Rows) (mode : Argument)

/-- `auto_vacuum=`. -/
def setAutoVacuum : PragmaM Rows :=
  setEnumPragma answer "auto_vacuum".toList mode (.hash (autoVacuumModes L))

/-- `default_synchronous=`. -/
def setDefaultSynchronous : PragmaM Rows :=
  setEnumPragma answer "default_synchronous".toList mode (.hash (synchronousModes L))

/-- `default_temp_store=`. -/
def setDefaultTempStore : PragmaM Rows :=
  setEnumPragma answer "default_temp_store".toList mode (.hash (tempStoreModes L))

/-- `encoding=`. -/
def setEncoding : PragmaM Rows := setStringPragma answer "encoding".toList mode (encodings L)

/-- `journal_mode=`. -/
def setJournalMode : PragmaM Rows :=
  setStringPragma answer "journal_mode".toList mode (journalModes L)

/-- `locking_mode=`. -/
def setLockingMode : PragmaM Rows :=
  setStringPragma answer "locking_mode".toList mode (lockingModes L)

/-- `synchronous=`. -/
def setSynchronous : PragmaM Rows :=
  setEnumPragma answer "synchronous".toList mode (.hash (synchronousModes L))

/-- `temp_store=`. -/
def setTempStore : PragmaM Rows :=
  setEnumPragma answer "temp_store".toList mode (.hash (tempStoreModes L))

/-- `wal_checkpoint=`. -/
def setWalCheckpoint : PragmaM Rows :=
  setStringPragma answer "wal_checkpoint".toList mode (walCheckpoints L)

/-- The setters with an enumeration. -/
inductive Setter
  | autoVacuum
  | defaultSynchronous
  | defaultTempStore
  | encoding
  | journalMode
  | lockingMode
  | synchronous
  | tempStore
  | walCheckpoint

namespace Setter

def run : Setter → PragmaM Rows
  | autoVacuum => setAutoVacuum L answer mode
  | defaultSynchronous => setDefaultSynchronous L answer mode
  | defaultTempStore => setDefaultTempStore L answer mode
  | encoding => setEncoding L answer mode
  | journalMode => setJournalMode L answer mode
  | lockingMode => setLockingMode L answer mode
  | synchronous => setSynchronous L answer mode
  | tempStore => setTempStore L answer mode
  | walCheckpoint => setWalCheckpoint L answer mode

def pragma : Setter → String
  | autoVacuum => "auto_vacuum"
  | defaultSynchronous => "default_synchronous"
  | defaultTempStore => "default_temp_store"
  | encoding => "encoding"
  | journalMode => "journal_mode"
  | lockingMode => "locking_mode"
  | synchronous => "synchronous"
  | tempStore => "temp_store"
  | walCheckpoint => "wal_checkpoint"

def modes : Setter → EnumHash L
  | autoVacuum => autoVacuumModes L
  | defaultSynchronous | synchronous => synchronousModes L
  | defaultTempStore | tempStore => tempStoreModes L
  | encoding => encodings L
  | journalMode => journalModes L
  | lockingMode => lockingModes L
  | walCheckpoint => walCheckpoints L

/-- The setter is built on `set_string_pragma`. -/
def viaString : Setter → Bool
  | encoding | journalMode | lockingMode | walCheckpoint => true
  | autoVacuum | defaultSynchronous | defaultTempStore | synchronous | tempStore => false

end Setter

end Setters

/-! ## The tokens of an assignment -/

/-- The text stands for itself between quotes. -/
def Bare (text : List Char) : Prop := '\x27' ∉ text ∧ '\x00' ∉ text

instance (text : List Char) : Decidable (Bare text) := inferInstanceAs (Decidable (_ ∧ _))

/-- `"PRAGMA #{name}=#{text}"`. -/
def assign (name text : List Char) : List Char := "PRAGMA ".toList ++ (name ++ '=' :: text)

theorem assignment_eq_assign (name text : List Char) :
    assignment name text = assign name ('\x27' :: (text ++ ['\x27'])) := by
  have hequals : "='".toList = ['=', '\x27'] := rfl
  unfold assignment assign
  rw [hequals, List.append_assoc, List.append_assoc, List.append_assoc]
  rfl

theorem lex_assign (pragma : PragmaName) {c : Char} (hc : c ≠ '=') (rest : List Char) :
    lex (assign pragma.text (c :: rest)) =
      .word "PRAGMA".toList :: pragma.tokens ++ .operator ['='] :: lex (c :: rest) := by
  obtain ⟨d, name, hname, hd⟩ := pragma.text_eq_cons
  have hspace : lex (' ' :: (pragma.text ++ '=' :: c :: rest)) =
      lex (pragma.text ++ '=' :: c :: rest) := by
    rw [hname]
    exact lex_space hd _
  have hassign : assign pragma.text (c :: rest) =
      Query.pragmaWord.text ++ ' ' :: (pragma.text ++ '=' :: c :: rest) := by
    have hhead : "PRAGMA ".toList = Query.pragmaWord.text ++ [' '] := rfl
    unfold assign
    rw [hhead, List.append_assoc, List.singleton_append]
  rw [hassign, Query.pragmaWord.lex_append (by decide) (by decide), hspace,
    pragma.lex_append (by decide) (by decide), lex_equals hc]
  rfl

theorem lex_assignment (pragma : PragmaName) (text : List Char) :
    lex (assignment pragma.text text) = .word "PRAGMA".toList :: pragma.tokens ++
      .operator ['='] :: lex ('\x27' :: (text ++ ['\x27'])) := by
  rw [assignment_eq_assign]
  exact lex_assign pragma (by decide) _

/-- A text without a quote and a NUL is the value of its literal. -/
theorem lex_between {text : List Char} (h : Bare text) :
    lex ('\x27' :: (text ++ ['\x27'])) = [.string text] := by
  have hnil : ∀ c ∈ ([] : List Char).getLast?, isSeparator c = true := by simp
  have hend : ([] : List Char).head? ≠ some '\x27' := by simp
  have hliteral := lex_append_literal (rfl : Complete []) hnil h.2 hend
  rw [Regex.doubled_eq_self h.1] at hliteral
  exact hliteral

theorem bare_of_lex {text : List Char} {tokens : List Token}
    (h : lex ('\x27' :: (text ++ ['\x27'])) = .string text :: tokens) : Bare text := by
  let apostrophe : Delimiter := ⟨'\x27', rfl⟩
  have hlex : lex ('\x27' :: (text ++ ['\x27'])) =
      lexer.output (.quoted apostrophe []) (text ++ ['\x27']) := rfl
  rw [hlex] at h
  refine ⟨fun hquote => ?_, fun hnul => ?_⟩
  · obtain ⟨value, rest, htext, -, hout⟩ | ⟨cut, tokens, hout⟩ :=
      output_quoted_cases apostrophe [] (text ++ ['\x27'])
    · have hvalue : value = text := by
        rw [hout, List.cons.injEq] at h
        exact Token.string.inj h.1
      rw [hvalue] at htext
      have hend : ([] : List Char).head? ≠ some '\x27' := by simp
      exact Regex.doubled_ne_of_mem hquote hend htext.symm
    · rw [hout, List.cons.injEq] at h
      cases h.1
  · obtain ⟨value, tokens, hout, hvalue⟩ | ⟨cut, tokens, hout⟩ :=
      output_quoted_no_nul apostrophe [] (by simp) (text ++ ['\x27'])
    · rw [hout, List.cons.injEq] at h
      exact hvalue (Token.string.inj h.1 ▸ hnul)
    · rw [hout, List.cons.injEq] at h
      cases h.1

theorem lex_between_iff (text : List Char) :
    lex ('\x27' :: (text ++ ['\x27'])) = [.string text] ↔ Bare text :=
  ⟨bare_of_lex, lex_between⟩

/-- The text is a word. -/
def isName : List Char → Bool
  | c :: rest => isWordStart c && c ≠ '\uFEFF' && rest.all isIdChar
  | [] => false

/-- A word, as the name of a pragma. -/
def pragmaName : (text : List Char) → isName text = true → PragmaName
  | c :: rest, h =>
    have hword : (isWordStart c = true ∧ c ≠ '\uFEFF') ∧ rest.all isIdChar = true := by
      simpa [isName] using h
    ⟨none, c, rest, hword.1, List.all_eq_true.mp hword.2⟩

@[simp] theorem pragmaName_text : ∀ {text : List Char} (h : isName text = true),
    (pragmaName text h).text = text
  | _ :: _, _ => rfl

@[simp] theorem pragmaName_tokens : ∀ {text : List Char} (h : isName text = true),
    (pragmaName text h).tokens = [.word text]
  | _ :: _, _ => rfl

theorem Setter.isName_pragma (setter : Setter) : isName setter.pragma.toList = true := by
  cases setter <;> decide

def Setter.pragmaName (setter : Setter) : PragmaName :=
  Pragmas.pragmaName setter.pragma.toList setter.isName_pragma

/-! ## The promise -/

/-- The tokens of the first statement of a text. -/
def firstStatement (sql : List Char) : List Token := (lex sql).takeWhile (· ≠ .operator [';'])

/-- The statement assigns this value to the pragma. -/
def Assigns (pragma : PragmaName) (value sql : List Char) : Prop :=
  firstStatement sql =
    .word "PRAGMA".toList :: pragma.tokens ++ [.operator ['='], .string value]

/-- The value that SQLite reads in a text between quotes, if that is all there is to the
statement. -/
def literal (text : List Char) : Option (List Char) :=
  match firstStatement ('\x27' :: (text ++ ['\x27'])) with
  | [.string value] => some value
  | _ => none

section Promise

variable {L : LowerCase} {Rows : Type}

/-- SQLite refuses a statement that goes on with anything but a literal. -/
def RefusesOthers (answer : List Char → Outcome Rows) : Prop :=
  ∀ (pragma : PragmaName) (text : List Char), literal text = none →
    ∃ e, answer (assignment pragma.text text) = .raise e ∧
      e.klass.isA .SQLite3Exception = true

/-- The texts of the members of an enumeration. -/
def Enums.members : Enums L → List (List Char)
  | .hash modes => modes.names ++ modes.entries.map fun entry => entry.2.text
  | .array entries => entries.flatten.map Argument.text

/-- The texts that a string stands for: that of the value with this name in a Hash, those of an
inner array in which it is an element. -/
def Enums.entryTexts (text : List Char) : Enums L → List (List Char)
  | .hash modes =>
    (modes.entries.filter fun entry => L.downcase entry.1 = L.downcase text).map fun entry =>
      entry.2.text
  | .array entries =>
    (entries.filter fun p => p.any fun i => L.downcase i.text = L.downcase text).flatten.map
      Argument.text

/-- A setter assigns a member with one statement, or it raises `SQLite3::Exception` and no
statement is executed; for a string that is in the enumeration it assigns what that stands
for. -/
structure KeepsToEnum (pragma : PragmaName) (enums : Enums L) (mode : Argument)
    (run : Outcome Rows × List (List Char)) : Prop where
  member_or_raise : (∃ value ∈ enums.members, ∃ sql, run.2 = [sql] ∧ Assigns pragma value sql) ∨
    ∃ e, run.1 = .raise e ∧ e.klass.isA .SQLite3Exception = true ∧
      ∀ sql ∈ run.2, ∀ value, ¬ Assigns pragma value sql
  entry : mode.isString = true → enums.entryTexts mode.text ≠ [] →
    ∃ value ∈ enums.entryTexts mode.text, ∃ sql, run.2 = [sql] ∧ Assigns pragma value sql

/-- What `set_enum_pragma` handles. In a Hash, a string is the name of a value other than
`nil` and `false`, which stands for itself between quotes, and another object is read as a
member, if it is read. In an Array of Arrays the mode is no element; the array that it is found
in would have to be read as an element itself. -/
def Handles (mode : Argument) : Enums L → Prop
  | .hash hash =>
    if mode.isString then
      ∃ value, (L.downcase mode.text, value) ∈ hash.entries ∧ value.truthy = true ∧
        Bare value.text
    else mode.truthy = true →
      ∀ value, literal mode.text = some value → value ∈ (Enums.hash hash).members
  | .array entries =>
    match entries.find? (findsIn L mode) with
    | none => mode.isString = true → (Enums.array entries : Enums L).entryTexts mode.text = []
    | some p =>
      if mode.isString then
        ∃ value ∈ (Enums.array entries : Enums L).entryTexts mode.text,
          literal (Argument.array p).text = some value
      else ∀ value, literal (Argument.array p).text = some value →
        value ∈ (Enums.array entries : Enums L).members

variable {answer : List Char → Outcome Rows} {pragma : PragmaName} {name : List Char}
  {mode : Argument} {enums : Enums L} {modes : EnumHash L}
  {run : Outcome Rows × List (List Char)}

/-! ## How a run ends -/

theorem literal_eq_some_iff {text value : List Char} :
    literal text = some value ↔
      firstStatement ('\x27' :: (text ++ ['\x27'])) = [.string value] := by
  unfold literal
  split
  · rename_i h
    rw [h]
    simp
  · rename_i h
    exact iff_of_false nofun (h value)

theorem firstStatement_assignment (pragma : PragmaName) (text : List Char) :
    firstStatement (assignment pragma.text text) =
      .word "PRAGMA".toList :: pragma.tokens ++ .operator ['='] ::
        firstStatement ('\x27' :: (text ++ ['\x27'])) := by
  have htokens : ∀ token ∈ (.word "PRAGMA".toList :: pragma.tokens ++ [.operator ['=']]),
      token ≠ Token.operator [';'] := by
    rw [PragmaName.tokens]
    cases pragma.schema with
    | none => simp
    | some schema => simp
  rw [firstStatement, lex_assignment, List.append_cons, List.takeWhile_append_of_pos
    fun token htoken => decide_eq_true (htokens token htoken), List.append_assoc]
  rfl

/-- A statement assigns what is read in its literal. -/
theorem assigns_assignment_iff {text value : List Char} :
    Assigns pragma value (assignment pragma.text text) ↔ literal text = some value := by
  rw [Assigns, firstStatement_assignment, literal_eq_some_iff, List.append_right_inj,
    List.cons.injEq, and_iff_right rfl]

theorem literal_self_iff {text : List Char} : literal text = some text ↔ Bare text := by
  rw [literal_eq_some_iff, firstStatement]
  constructor
  · intro h
    cases htokens : lex ('\x27' :: (text ++ ['\x27'])) with
    | nil =>
      rw [htokens] at h
      cases h
    | cons token tokens =>
      rw [htokens, List.takeWhile_cons] at h
      split at h
      · obtain rfl := (List.cons.inj h).1
        exact bare_of_lex htokens
      · cases h
  · intro h
    rw [lex_between h]
    rfl

theorem isA_sqlite3Exception : ExceptionClass.SQLite3Exception.isA .SQLite3Exception = true := by
  decide

theorem entryTexts_subset (enums : Enums L) (text : List Char) :
    enums.entryTexts text ⊆ enums.members := by
  cases enums with
  | hash modes =>
    intro t ht
    obtain ⟨entry, hentry, rfl⟩ := List.mem_map.mp ht
    exact List.mem_append_right _ (List.mem_map_of_mem ((List.mem_filter.mp hentry).1))
  | array entries =>
    apply List.map_subset
    intro i hi
    obtain ⟨p, hp, hip⟩ := List.mem_flatten.mp hi
    exact List.mem_flatten.mpr ⟨p, (List.mem_filter.mp hp).1, hip⟩

/-- A run that hands one text to `execute`. -/
theorem keepsToEnum_assigned (hrefuses : RefusesOthers answer) {text : List Char}
    (h : run = (answer (assignment pragma.text text), [assignment pragma.text text])) :
    KeepsToEnum pragma enums mode run ↔
      (∀ value, literal text = some value → value ∈ enums.members) ∧
        (mode.isString = true → enums.entryTexts mode.text ≠ [] →
          ∃ value ∈ enums.entryTexts mode.text, literal text = some value) := by
  subst h
  have hsame (sql : List Char) : [assignment pragma.text text] = [sql] ↔
      sql = assignment pragma.text text := by
    rw [List.singleton_inj, eq_comm]
  constructor
  · rintro ⟨hmember, hentry⟩
    constructor
    · intro value hvalue
      obtain ⟨value', hmem, sql, hsql, hassigns⟩ | ⟨e, -, -, hnone⟩ := hmember
      · obtain rfl := (hsame sql).mp hsql
        rw [assigns_assignment_iff, hvalue] at hassigns
        exact Option.some.inj hassigns ▸ hmem
      · exact absurd (assigns_assignment_iff.mpr hvalue) (hnone _ List.mem_cons_self value)
    · intro hstring hfound
      obtain ⟨value, hmem, sql, hsql, hassigns⟩ := hentry hstring hfound
      obtain rfl := (hsame sql).mp hsql
      exact ⟨value, hmem, assigns_assignment_iff.mp hassigns⟩
  · rintro ⟨hmember, hentry⟩
    constructor
    · cases hliteral : literal text with
      | none =>
        obtain ⟨e, he, hclass⟩ := hrefuses pragma text hliteral
        refine Or.inr ⟨e, he, hclass, fun sql hsql value hassigns => ?_⟩
        obtain rfl := List.mem_singleton.mp hsql
        rw [assigns_assignment_iff, hliteral] at hassigns
        cases hassigns
      | some value =>
        exact Or.inl ⟨value, hmember value hliteral, _, rfl, assigns_assignment_iff.mpr hliteral⟩
    · intro hstring hfound
      obtain ⟨value, hmem, hliteral⟩ := hentry hstring hfound
      exact ⟨value, hmem, _, rfl, assigns_assignment_iff.mpr hliteral⟩

/-- A run that raises before that. -/
theorem keepsToEnum_raised {e : RubyException} (h : run = (.raise e, [])) :
    KeepsToEnum pragma enums mode run ↔ e.klass.isA .SQLite3Exception = true ∧
      (mode.isString = true → enums.entryTexts mode.text = []) := by
  subst h
  constructor
  · rintro ⟨hmember, hentry⟩
    constructor
    · obtain ⟨value, -, sql, hrun, -⟩ | ⟨e', he, hclass, -⟩ := hmember
      · cases hrun
      · obtain rfl := Outcome.raise.inj he
        exact hclass
    · intro hstring
      by_contra hfound
      obtain ⟨value, -, sql, hrun, -⟩ := hentry hstring hfound
      cases hrun
  · rintro ⟨hclass, hnone⟩
    exact ⟨Or.inr ⟨e, rfl, hclass, nofun⟩, fun hstring hfound => absurd (hnone hstring) hfound⟩

theorem setEnumPragma_found {found : Argument} (h : matched mode enums = .ok found)
    (htruthy : found.truthy = true) :
    setEnumPragma answer name mode enums [] =
      (answer (assignment name found.text), [assignment name found.text]) := by
  rw [setEnumPragma, h, RubyM.lift_ok_bind, if_pos htruthy]
  rfl

theorem setEnumPragma_not_found {found : Argument} (h : matched mode enums = .ok found)
    (hfalsy : found.truthy = false) :
    setEnumPragma answer name mode enums [] = (.raise (unrecognized name mode), []) := by
  rw [setEnumPragma, h, RubyM.lift_ok_bind, if_neg (by simp [hfalsy])]
  rfl

theorem setEnumPragma_raise {e : RubyException} (h : matched mode enums = .raise e) :
    setEnumPragma answer name mode enums [] = (.raise e, []) := by
  rw [setEnumPragma, h, RubyM.lift_raise_bind]

/-! ## The two forms -/

theorem entryTexts_hash_ne_nil_iff (modes : EnumHash L) (text : List Char) :
    (Enums.hash modes).entryTexts text ≠ [] ↔
      ∃ value, (L.downcase text, value) ∈ modes.entries := by
  rw [Enums.entryTexts, ne_eq, List.map_eq_nil_iff, List.filter_eq_nil_iff]
  push Not
  constructor
  · rintro ⟨⟨key, value⟩, hentry, hkey⟩
    have hname := modes.names_downcased _ hentry
    rw [decide_eq_true_eq, hname] at hkey
    exact ⟨value, hkey ▸ hentry⟩
  · rintro ⟨value, hentry⟩
    exact ⟨_, hentry, by rw [decide_eq_true_eq, modes.names_downcased _ hentry]⟩

/-- The string stands for the value with the name, and for nothing else. -/
theorem mem_entryTexts_hash_iff {text value : List Char} {found : Argument}
    (h : (L.downcase text, found) ∈ modes.entries) :
    value ∈ (Enums.hash modes).entryTexts text ↔ value = found.text := by
  constructor
  · intro hvalue
    obtain ⟨⟨key, found'⟩, hentry, rfl⟩ := List.mem_map.mp hvalue
    obtain ⟨hmem, hkey⟩ := List.mem_filter.mp hentry
    rw [decide_eq_true_eq, modes.names_downcased _ hmem] at hkey
    have hlookup := (lookup_eq_some_iff_mem modes.names_nodup).mpr h
    rw [← hkey, (lookup_eq_some_iff_mem modes.names_nodup).mpr hmem] at hlookup
    rw [Option.some.inj hlookup]
  · rintro rfl
    refine List.mem_map.mpr ⟨_, List.mem_filter.mpr ⟨h, ?_⟩, rfl⟩
    rw [decide_eq_true_eq, modes.names_downcased _ h]

theorem matched_hash_string (hstring : mode.isString = true) {value : Argument} :
    matched mode (.hash modes) = .ok value ↔ (L.downcase mode.text, value) ∈ modes.entries := by
  rw [matched, if_pos hstring, EnumHash.fetch, ← lookup_eq_some_iff_mem modes.names_nodup]
  cases modes.entries.lookup (L.downcase mode.text) with
  | none => exact iff_of_false nofun nofun
  | some found =>
    exact ⟨fun h => congrArg some (Outcome.ok.inj h), fun h => congrArg Outcome.ok (Option.some.inj h)⟩

/-- A string that is no name raises `KeyError`. -/
theorem matched_hash_raise (hstring : mode.isString = true)
    (h : ¬ ∃ value, (L.downcase mode.text, value) ∈ modes.entries) :
    ∃ e, matched mode (.hash modes) = .raise e ∧ e.klass = KeyError := by
  rw [matched, if_pos hstring, EnumHash.fetch]
  cases hlookup : modes.entries.lookup (L.downcase mode.text) with
  | none => exact ⟨_, rfl, rfl⟩
  | some value => exact absurd ⟨value, (lookup_eq_some_iff_mem modes.names_nodup).mp hlookup⟩ h

theorem setEnumPragma_hash_string_iff (hrefuses : RefusesOthers answer)
    (hstring : mode.isString = true) :
    KeepsToEnum pragma (.hash modes) mode
        (setEnumPragma answer pragma.text mode (.hash modes) []) ↔
      ∃ value, (L.downcase mode.text, value) ∈ modes.entries ∧ value.truthy = true ∧
        Bare value.text := by
  by_cases hname : ∃ value, (L.downcase mode.text, value) ∈ modes.entries
  · obtain ⟨value, hentry⟩ := hname
    have hfetch := (matched_hash_string hstring).mpr hentry
    have honly : ∀ value', (L.downcase mode.text, value') ∈ modes.entries → value' = value := by
      intro value' hentry'
      exact Outcome.ok.inj (((matched_hash_string hstring).mpr hentry').symm.trans hfetch)
    have hfound := (entryTexts_hash_ne_nil_iff modes _).mpr ⟨value, hentry⟩
    cases htruthy : value.truthy with
    | true =>
      rw [keepsToEnum_assigned hrefuses (setEnumPragma_found hfetch htruthy)]
      constructor
      · rintro ⟨-, hassigned⟩
        obtain ⟨text, htext, hliteral⟩ := hassigned hstring hfound
        obtain rfl := (mem_entryTexts_hash_iff hentry).mp htext
        exact ⟨value, hentry, htruthy, literal_self_iff.mp hliteral⟩
      · rintro ⟨value', hentry', -, hbare⟩
        obtain rfl := honly value' hentry'
        have htext := (mem_entryTexts_hash_iff hentry).mpr rfl
        have hliteral := literal_self_iff.mpr hbare
        refine ⟨fun text htext' => ?_, fun _ _ => ⟨_, htext, hliteral⟩⟩
        rw [hliteral] at htext'
        exact Option.some.inj htext' ▸ entryTexts_subset _ _ htext
    | false =>
      rw [keepsToEnum_raised (setEnumPragma_not_found hfetch htruthy)]
      apply iff_of_false
      · rintro ⟨-, hnone⟩
        exact hfound (hnone hstring)
      · rintro ⟨value', hentry', htruthy', -⟩
        rw [honly value' hentry', htruthy] at htruthy'
        cases htruthy'
  · obtain ⟨e, hfetch, hkey⟩ := matched_hash_raise hstring hname
    rw [keepsToEnum_raised (setEnumPragma_raise hfetch), hkey]
    apply iff_of_false
    · rintro ⟨hclass, -⟩
      exact absurd hclass (by decide)
    · rintro ⟨value, hentry, -⟩
      exact hname ⟨value, hentry⟩

/-- A setter with a Hash keeps to it for the modes that it handles. -/
theorem setEnumPragma_hash_iff (hrefuses : RefusesOthers answer) :
    KeepsToEnum pragma (.hash modes) mode
        (setEnumPragma answer pragma.text mode (.hash modes) []) ↔
      Handles mode (.hash modes) := by
  rw [Handles]
  by_cases hstring : mode.isString = true
  · rw [if_pos hstring]
    exact setEnumPragma_hash_string_iff hrefuses hstring
  · have hmatched : matched mode (.hash modes) = .ok mode := by rw [matched, if_neg hstring]
    rw [if_neg hstring]
    cases htruthy : mode.truthy with
    | true =>
      rw [keepsToEnum_assigned hrefuses (setEnumPragma_found hmatched htruthy)]
      simp [hstring]
    | false =>
      rw [keepsToEnum_raised (setEnumPragma_not_found hmatched htruthy)]
      simp [hstring, unrecognized, isA_sqlite3Exception]

theorem entryTexts_array_ne_nil {entries : List (List Argument)} {p : List Argument}
    (hp : p ∈ entries) {i : Argument} (hi : i ∈ p) {text : List Char}
    (hsame : L.downcase i.text = L.downcase text) :
    (Enums.array entries : Enums L).entryTexts text ≠ [] := by
  apply List.ne_nil_of_mem (a := i.text)
  refine List.mem_map_of_mem (List.mem_flatten.mpr ⟨p, List.mem_filter.mpr ⟨hp, ?_⟩, hi⟩)
  exact List.any_eq_true.mpr ⟨i, hi, decide_eq_true hsame⟩

/-- A setter with an Array keeps to it for the modes that it handles. -/
theorem setEnumPragma_array_iff (hrefuses : RefusesOthers answer)
    {entries : List (List Argument)} :
    KeepsToEnum pragma (.array entries : Enums L) mode
        (setEnumPragma answer pragma.text mode (.array entries : Enums L) []) ↔
      Handles mode (.array entries : Enums L) := by
  cases hfind : entries.find? (findsIn L mode) with
  | none =>
    have hmatched : matched mode (.array entries : Enums L) = .ok .nil := by rw [matched, hfind]; rfl
    rw [Handles, hfind, keepsToEnum_raised (setEnumPragma_not_found hmatched rfl)]
    simp [unrecognized, isA_sqlite3Exception]
  | some p =>
    have hmatched : matched mode (.array entries : Enums L) = .ok (.array p) := by
      rw [matched, hfind]
      rfl
    have hfound : (Enums.array entries : Enums L).entryTexts mode.text ≠ [] := by
      have hfinds := List.find?_some hfind
      rw [findsIn] at hfinds
      cases helement : p.find? (sameText L mode) with
      | none =>
        rw [helement] at hfinds
        cases hfinds
      | some i =>
        have hsame := List.find?_some helement
        rw [sameText, decide_eq_true_eq] at hsame
        exact entryTexts_array_ne_nil (List.mem_of_find?_eq_some hfind)
          (List.mem_of_find?_eq_some helement) hsame
    rw [Handles, hfind, keepsToEnum_assigned hrefuses (setEnumPragma_found hmatched rfl)]
    have hsubset := entryTexts_subset (Enums.array entries : Enums L) mode.text
    by_cases hstring : mode.isString = true
    · simp only [hstring, if_true, hfound, ne_eq, not_false_eq_true, forall_const]
      refine and_iff_right_of_imp ?_
      rintro ⟨value, hvalue, hliteral⟩ value' hliteral'
      rw [hliteral] at hliteral'
      exact Option.some.inj hliteral' ▸ hsubset hvalue
    · simp [hstring]

theorem setEnumPragma_iff (hrefuses : RefusesOthers answer) :
    KeepsToEnum pragma enums mode (setEnumPragma answer pragma.text mode enums []) ↔
      Handles mode enums := by
  cases enums with
  | hash modes => exact setEnumPragma_hash_iff hrefuses
  | array entries => exact setEnumPragma_array_iff hrefuses

/-! ## The check of the mode -/

/-- `set_string_pragma` also rejects what is not the text of a name. -/
theorem setStringPragma_iff (hrefuses : RefusesOthers answer) :
    KeepsToEnum pragma (.hash modes) mode (setStringPragma answer pragma.text mode modes []) ↔
      L.downcase mode.text ∉ modes.names ∨ Handles mode (.hash modes) := by
  have hnames : L.downcase mode.text ∈ modes.names ↔
      ∃ value, (L.downcase mode.text, value) ∈ modes.entries := by
    simp [EnumHash.names]
  cases hlookup : modes.entries.lookup (L.downcase mode.text) with
  | none =>
    have hunknown : L.downcase mode.text ∉ modes.names := by
      rw [hnames]
      rintro ⟨value, hentry⟩
      rw [← lookup_eq_some_iff_mem modes.names_nodup, hlookup] at hentry
      cases hentry
    have hraise : setStringPragma answer pragma.text mode modes [] =
        (.raise (unrecognized pragma.text mode), []) := by
      rw [setStringPragma, hlookup, RubyM.lift_raise_bind]
    rw [keepsToEnum_raised hraise]
    apply iff_of_true _ (Or.inl hunknown)
    refine ⟨isA_sqlite3Exception, fun _ => ?_⟩
    by_contra hfound
    exact hunknown (hnames.mpr ((entryTexts_hash_ne_nil_iff modes _).mp hfound))
  | some value =>
    have hknown : L.downcase mode.text ∈ modes.names :=
      hnames.mpr ⟨value, (lookup_eq_some_iff_mem modes.names_nodup).mp hlookup⟩
    have hpass : setStringPragma answer pragma.text mode modes [] =
        setEnumPragma answer pragma.text mode (.hash modes) [] := by
      rw [setStringPragma, hlookup, RubyM.lift_ok_bind]
    rw [hpass, setEnumPragma_iff hrefuses]
    exact (or_iff_right (not_not_intro hknown)).symm

/-- The setters keep to their enumerations for the modes that they handle, and so do all
that are built on them. -/
theorem setters_keepToEnum_iff (L : LowerCase) (answer : List Char → Outcome Rows)
    (hrefuses : RefusesOthers answer) :
    (∀ (pragma : PragmaName) mode, ∀ enums : Enums L,
      KeepsToEnum pragma enums mode (setEnumPragma answer pragma.text mode enums []) ↔
        Handles mode enums) ∧
    (∀ (pragma : PragmaName) mode, ∀ modes : EnumHash L,
      KeepsToEnum pragma (.hash modes) mode (setStringPragma answer pragma.text mode modes []) ↔
        L.downcase mode.text ∉ modes.names ∨ Handles mode (.hash modes)) ∧
    ∀ setter : Setter, ∀ mode,
      KeepsToEnum setter.pragmaName (.hash (setter.modes L)) mode (setter.run L answer mode []) ↔
        setter.viaString = true ∧ L.downcase mode.text ∉ (setter.modes L).names ∨
          Handles mode (.hash (setter.modes L)) := by
  refine ⟨fun pragma mode enums => setEnumPragma_iff hrefuses,
    fun pragma mode modes => setStringPragma_iff hrefuses, fun setter mode => ?_⟩
  have htext : setter.pragmaName.text = setter.pragma.toList := pragmaName_text _
  have henum : setter.viaString = false → setter.run L answer mode =
      setEnumPragma answer setter.pragmaName.text mode (.hash (setter.modes L)) := by
    rw [htext]
    cases setter <;> first | exact fun _ => rfl | exact fun h => nomatch h
  have hstring : setter.viaString = true → setter.run L answer mode =
      setStringPragma answer setter.pragmaName.text mode (setter.modes L) := by
    rw [htext]
    cases setter <;> first | exact fun _ => rfl | exact fun h => nomatch h
  cases hvia : setter.viaString with
  | false =>
    rw [henum hvia, setEnumPragma_iff hrefuses]
    simp
  | true =>
    rw [hstring hvia, setStringPragma_iff hrefuses]
    simp

end Promise

/-- The lower case of the letters of ASCII. -/
def asciiLowerCase : LowerCase := ⟨fun c => [c.toLower], fun _ _ => rfl⟩

/-- A database that takes the assignment of a literal, and nothing else. -/
def takesLiterals (sql : List Char) : Outcome Unit :=
  match (firstStatement sql).dropWhile (· ≠ .operator ['=']) with
  | [_, .string _] => .ok ()
  | _ => check 1 "syntax error"

theorem takesLiterals_refusesOthers : RefusesOthers takesLiterals := by
  intro pragma text hliteral
  have hrest : (firstStatement (assignment pragma.text text)).dropWhile (· ≠ .operator ['=']) =
      .operator ['='] :: firstStatement ('\x27' :: (text ++ ['\x27'])) := by
    rw [firstStatement_assignment, List.cons_append, List.dropWhile_cons_of_pos (by simp),
      PragmaName.tokens]
    cases pragma.schema with
    | none => simp
    | some schema => simp
  rw [takesLiterals, hrest]
  split
  · rename_i value hvalue
    have hsome := literal_eq_some_iff.mpr (List.cons.inj hvalue).2
    cases hliteral.symm.trans hsome
  · exact ⟨_, rfl, by decide⟩

/-- `synchronous = "OFF"` -/
theorem off_keepsToEnum :
    KeepsToEnum Setter.synchronous.pragmaName (.hash (synchronousModes asciiLowerCase))
      (.plain "OFF".toList)
      (setSynchronous asciiLowerCase takesLiterals (.plain "OFF".toList) []) := by
  apply ((setters_keepToEnum_iff asciiLowerCase takesLiterals takesLiterals_refusesOthers).2.2
    .synchronous (.plain "OFF".toList)).mpr
  have hentry : ("off", Argument.integer 0) ∈
      [("full", Argument.integer 2), ("normal", .integer 1), ("off", .integer 0)] := by simp
  have hname : asciiLowerCase.downcase "OFF".toList = "off".toList := by decide
  refine Or.inr ⟨.integer 0, List.mem_map.mpr ⟨_, hentry, ?_⟩, rfl, by decide⟩
  exact congrArg (·, Argument.integer 0) hname.symm

/-- `synchronous = "bogus"`, which raises `KeyError`. -/
theorem unknown_mode_raises_keyError :
    ¬ ∀ (L : LowerCase) (answer : List Char → Outcome Unit), RefusesOthers answer →
      ∀ (pragma : PragmaName) (mode : Argument) (enums : Enums L),
        KeepsToEnum pragma enums mode (setEnumPragma answer pragma.text mode enums []) := by
  intro hclaim
  have hkeeps := hclaim asciiLowerCase takesLiterals takesLiterals_refusesOthers
    Setter.synchronous.pragmaName (.plain "bogus".toList) (.hash (synchronousModes asciiLowerCase))
  obtain ⟨value, hentry, -⟩ := (setEnumPragma_iff takesLiterals_refusesOthers).mp hkeeps
  have hname : asciiLowerCase.downcase "bogus".toList ∈ (synchronousModes asciiLowerCase).names :=
    List.mem_map_of_mem hentry
  exact absurd hname (by decide)

/-- In an Array, the inner array itself is the value. -/
example : (setEnumPragma (fun _ => .ok ()) "temp_store".toList (.plain "FILE".toList)
    (.array [[.plain "file".toList, .integer 1]] : Enums asciiLowerCase) []).2 =
      ["PRAGMA temp_store='[\"file\", 1]'".toList] := by decide

end Sqlite3Ruby.Pragmas
