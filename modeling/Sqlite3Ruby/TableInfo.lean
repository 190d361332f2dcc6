import Sqlite3Ruby.Defaults
import Sqlite3Ruby.EachLoops

/-!
# The columns of a table

`table_info` runs over the rows of the pragma, tweaks each of them, and returns them.

## Implementation notes

The lower case of a character is a parameter.
-/

namespace Sqlite3Ruby.Query

/-! ## The rest of a row -/

/-- `to_i`, for a text that begins with its digits. -/
def toI (text : List Char) : Nat := Nat.ofDigitChars 10 (text.takeWhile Char.isDigit) 0

def compareParts : List (Nat × Nat) → Int
  | [] => 0
  | (a, b) :: parts => if a < b then -1 else if b < a then 1 else compareParts parts

/-- `version_compare`. -/
def versionCompare (v1 v2 : List Char) : Int :=
  let v1 := (v1.splitOn '.').map toI
  let v2 := (v2.splitOn '.').map toI
  let parts := max v1.length v2.length
  compareParts ((v1 ++ List.replicate (parts - v1.length) 0).zip
    (v2 ++ List.replicate (parts - v2.length) 0))

/-- `SQLite3.libversion` is a number. -/
def needsTweakDefault (libversion : Nat) : Bool :=
  0 < versionCompare (Nat.toDigits 10 libversion) ['3', '.', '3', '.', '7']

/-- `downcase`, where `lower` is the lower case of a character. -/
def downcase (lower : Char → List Char) (s : RString) : Outcome RString :=
  match s.encoding with
  | .utf8 =>
      if s.isBroken then .raise ⟨.ArgumentError, "input string invalid"⟩
      else .ok (withChars s ((chars s).flatMap lower))
  | _ => .ok (withChars s ((chars s).map Char.toLower))

def noDowncase (value : Value) : RubyException :=
  ⟨.subclass "NoMethodError" (.subclass "NameError" .StandardError),
    "undefined method 'downcase' for an instance of " ++ value.className⟩

/-- What `table_info` does to a row. -/
def tweakRow (libversion : Nat) (lower : Char → List Char) (hash : List (String × Value)) :
    Outcome (List (String × Value)) := do
  let newRow ← if needsTweakDefault libversion then tweakDefault hash else .ok hash
  match (hashAref newRow "type").getD .nil with
  | .nil | .false_ => .ok newRow
  | .string s => do
      let type ← downcase lower s
      .ok (hashAset newRow "type" (.string type))
  | value => .raise (noDowncase value)

/-! ## The rows of `table_info` -/

/-- A text as a row has it. -/
def textValue : Option (List Char) → Value
  | none => .nil
  | some cs => utf8StrNew (Utf8.encode cs)

theorem chars_encode (cs : List Char) : chars ⟨.string, .utf8, Utf8.encode cs⟩ = cs := by
  rw [chars, Utf8.decode_encode]
  rfl

theorem encode_not_broken (cs : List Char) :
    RString.isBroken ⟨.string, .utf8, Utf8.encode cs⟩ = false := by
  rw [RString.isBroken, Bool.not_eq_false']
  exact (Utf8.validateUTF8_iff _).mpr ⟨cs, rfl⟩

/-- `tweak_default` changes nothing but the default. -/
theorem tweakDefault_text {hash : List (String × Value)} {source : Option (List Char)}
    (h : hashAref hash "dflt_value" = some (textValue source)) :
    ∃ newRow, tweakDefault hash = .ok newRow ∧
      hashAref newRow "dflt_value" = some (textValue (source.bind unquoted)) ∧
      ∀ key ≠ "dflt_value", hashAref newRow key = hashAref hash key := by
  have hset (value : Value) : hashAref (hashAset hash "dflt_value" value) "dflt_value" =
        some value ∧
      ∀ key ≠ "dflt_value", hashAref (hashAset hash "dflt_value" value) key =
        hashAref hash key := by
    constructor
    · rw [hashAref_hashAset, if_pos rfl]
    · intro key hkey
      rw [hashAref_hashAset, if_neg hkey]
  cases source with
  | none =>
      refine ⟨hash, ?_, h, fun _ _ => rfl⟩
      rw [tweakDefault, h]
      rfl
  | some cs =>
      rw [textValue, utf8StrNew] at h
      rw [tweakDefault, h, Option.bind_some, unquoted]
      simp only [encode_not_broken, chars_encode, Bool.false_eq_true, if_false]
      split
      · exact ⟨_, rfl, hset _⟩
      · split
        · exact ⟨_, rfl, hset _⟩
        · split
          · exact ⟨_, rfl, hset _⟩
          · exact ⟨hash, rfl, h, fun _ _ => rfl⟩

theorem toI_toDigits (n : Nat) : toI (Nat.toDigits 10 n) = n := by
  have hdigits : (Nat.toDigits 10 n).takeWhile Char.isDigit = Nat.toDigits 10 n :=
    List.takeWhile_eq_self_iff.mpr fun c hc =>
      Nat.isDigit_of_mem_toDigits (by decide) (by decide) hc
  rw [toI, hdigits, Nat.ofDigitChars_ten_toDigits]

/-- The number of any version since 3.0.0 is above 3. -/
theorem needsTweakDefault_of_lt {libversion : Nat} (h : 3 < libversion) :
    needsTweakDefault libversion = true := by
  have hdot : '.' ∉ Nat.toDigits 10 libversion := by
    intro hmem
    exact absurd (Nat.isDigit_of_mem_toDigits (by decide) (by decide) hmem) (by decide)
  have hsplit : (Nat.toDigits 10 libversion).splitOn '.' = [Nat.toDigits 10 libversion] :=
    List.splitOn_eq_singleton hdot
  have hthree : (['3', '.', '3', '.', '7'].splitOn '.').map toI = [3, 3, 7] := by decide
  rw [needsTweakDefault, versionCompare, hsplit, hthree, List.map_singleton, toI_toDigits]
  simp [compareParts, Nat.not_lt.mpr h.le, h]

/-- A row has its default unquoted and the rest as it is, but for the case of its type. -/
theorem tweakRow_reports {libversion : Nat} (hversion : 3 < libversion) (lower : Char → List Char)
    {hash : List (String × Value)} {type : List Char} {source : Option (List Char)}
    (htype : hashAref hash "type" = some (textValue (some type)))
    (hdefault : hashAref hash "dflt_value" = some (textValue source)) :
    ∃ newRow, tweakRow libversion lower hash = .ok newRow ∧
      hashAref newRow "dflt_value" = some (textValue (source.bind unquoted)) := by
  obtain ⟨newRow, htweak, hreported, hrest⟩ := tweakDefault_text hdefault
  have htype' : hashAref newRow "type" = some (.string ⟨.string, .utf8, Utf8.encode type⟩) :=
    (hrest "type" (by decide)).trans htype
  let lowered : RString := withChars ⟨.string, .utf8, Utf8.encode type⟩ (type.flatMap lower)
  have hdowncase : downcase lower ⟨.string, .utf8, Utf8.encode type⟩ = .ok lowered := by
    simp [downcase, encode_not_broken, chars_encode, lowered]
  refine ⟨hashAset newRow "type" (.string lowered), ?_, ?_⟩
  · rw [tweakRow, if_pos (needsTweakDefault_of_lt hversion), htweak, Outcome.ok_bind]
    beta_reduce
    rw [htype', Option.getD_some]
    simp only [hdowncase, Outcome.ok_bind]
  · rw [hashAref_hashAset, if_neg (by decide), hreported]

section Runs

variable {C : Type} {β : Type} {host : Host} {compile : List UInt8 → C → Compiled C}
  {program : Program C} {stmt : Prepared}

/-- The course of a loop over an execution that comes to an end, with a block that only works on
its own variable. -/
theorem course_of_drain {body : β → List Value → QueryM C β} {f : β → List Value → β}
    {rounds : Nat} {rows : List (List Value)}
    (hbody : ∀ b (db : Database C), ∀ row ∈ rows, body b row rounds db = some (.ok (f b row), db))
    (limit : Nat) {b : β} {db : Database C} {s : Statement C}
    (h : db.statement stmt.id = some s) (hdone : s.doneP = false)
    (hdrain : (db.machine s).drain limit = some (.ok rows)) :
    ∃ db' s', CallM.Course (step stmt) body rounds limit b db rows (.last (rows.foldl f b)) db' ∧
      db'.statement stmt.id = some s' := by
  rcases (step_handsOut stmt s.program.columns).cases rounds h rfl hdone with
    ⟨hanswer, hrun⟩ | ⟨row, hanswer, hrun⟩ | ⟨e, db', hanswer, -⟩
  · rw [Machine.drain_last hanswer] at hdrain
    obtain rfl := Outcome.ok.inj (Option.some.inj hdrain)
    exact ⟨_, _, .last hrun, Database.statement_put h _⟩
  · cases limit with
    | zero =>
        rw [Machine.drain_zero hanswer] at hdrain
        cases hdrain
    | succ limit =>
        rw [Machine.drain_succ hanswer] at hdrain
        obtain ⟨o, ho, hrows⟩ := Option.map_eq_some_iff.mp hdrain
        cases o with
        | ok rest =>
            obtain rfl := Outcome.ok.inj hrows
            have hput := Database.statement_put h (db.machine s).stepped
            have hdone' : (db.machine s).stepped.statement.doneP = false :=
              (Statement.stepped_doneP _).trans hdone
            obtain ⟨db', s', hcourse, hs'⟩ :=
              course_of_drain (fun b db r hr => hbody b db r (List.mem_cons_of_mem _ hr)) limit hput
                hdone' ho
            exact ⟨db', s', .round hrun (hbody b _ row List.mem_cons_self) hcourse, hs'⟩
        | raise e => cases hrows
        | jump tag => cases hrows
  · rw [Machine.drain_raise hanswer] at hdrain
    cases hdrain

/-- `table_info` returns its rows one after the other, each as it was tweaked. -/
theorem tableInfo_result {tweak : List (String × Value) → Outcome (List (String × Value))}
    {newRow : List Value → List (String × Value)} {table : List UInt8} {db : Database C}
    {rounds : Nat} {rows : List (List Value)}
    (hcompiles : Compiles host compile db (tableInfoText table) program)
    (hdrain : (db.machine { program }).drain rounds = some (.ok rows))
    (htweak : ∀ row ∈ rows, tweak (zipToH program.columns row) = .ok (newRow row)) :
    result (tableInfo host compile tweak table) db rounds = some (.ok (rows.map newRow)) := by
  obtain ⟨hopen, text, tail, htext, hcompile⟩ := hcompiles
  have hprepare := prepare_statement rounds hopen htext hcompile
  let stmt : Prepared := ⟨db.statements.length, tail ++ sqlUnread text⟩
  have hnew : (db.push (some { program })).statement stmt.id = some { program } :=
    Database.statement_push db _
  have hbody (b : List (List (String × Value))) (db' : Database C) (row : List Value)
      (hrow : row ∈ rows) :
      tableInfoRow tweak pushRow program.columns b row rounds db' =
        some (.ok (b ++ [newRow row]), db') := by
    rw [tableInfoRow, htweak row hrow]
    rfl
  obtain ⟨db', s', hcourse, hs'⟩ :=
    course_of_drain (fun b db row hrow => hbody b db row hrow) rounds hnew rfl hdrain
  have hpushed : rows.foldl (fun b row => b ++ [newRow row]) [] = rows.map newRow := by
    rw [List.foldl_append_eq_append, List.nil_append, ← List.flatMap_def, ← List.map_eq_flatMap]
  have heach : statementEach stmt (tableInfoRow tweak pushRow program.columns) [] rounds
      (db.push (some { program })) = some (.ok (rows.map newRow), db') := by
    rw [statementEach, nextValues_eq, CallM.loopSome, hcourse.loopRounds,
      CallM.LoopExit.loopOutcome, hpushed]
  have hclose : close stmt rounds db' = some (.ok (), db'.finalize stmt.id) := by
    rw [close, CallM.get_bind, hs']
    rfl
  have hrun : tableInfo host compile tweak table rounds db =
      some (.ok (rows.map newRow), db'.finalize stmt.id) := by
    rw [tableInfo, tableInfoBlock, CallM.bind_run_ok _ _ hprepare,
      CallM.bind_run_ok _ _ (columns_run hnew rounds)]
    change (statementEach stmt (tableInfoRow tweak pushRow program.columns) [] >>= fun b =>
      close stmt >>= fun _ => pure b) rounds (db.push (some { program })) = _
    rw [CallM.bind_run_ok _ _ heach, CallM.bind_run_ok _ _ hclose]
    rfl
  rw [result, hrun]
  rfl

/-- A column as `PRAGMA table_info` has it. -/
structure Column where
  cid : Int
  name : List Char
  type : List Char
  notnull : Int
  default : Default
  pk : Int

def Column.row (column : Column) : List Value :=
  [.integer column.cid, textValue column.name, textValue column.type, .integer column.notnull,
    textValue column.default.source, .integer column.pk]

/-- `PRAGMA table_info` has a row for each of these columns, and the text of a default is the
source text of its expression. -/
def Describes (host : Host) (compile : List UInt8 → C → Compiled C) (db : Database C)
    (table : List UInt8) (rounds : Nat) (columns : List Column) : Prop :=
  ∃ program, Compiles host compile db (tableInfoText table) program ∧
    program.columns = ["cid", "name", "type", "notnull", "dflt_value", "pk"] ∧
    (db.machine { program }).drain rounds = some (.ok (columns.map Column.row))

/-- `table_info` returns a hash for each column, with what the default means. -/
def DefaultsRecovered (host : Host) (compile : List UInt8 → C → Compiled C) (libversion : Nat)
    (lower : Char → List Char) (db : Database C) (table : List UInt8) (rounds : Nat)
    (columns : List Column) : Prop :=
  ∃ hashes, result (tableInfo host compile (tweakRow libversion lower) table) db rounds =
      some (.ok hashes) ∧
    hashes.map (hashAref · "dflt_value") =
      columns.map fun column => some (textValue column.default.meant)

/-- What is reported of the columns. -/
theorem tableInfo_reports {libversion : Nat} (hversion : 3 < libversion)
    (lower : Char → List Char) {db : Database C} {table : List UInt8} {rounds : Nat}
    {columns : List Column} (h : Describes host compile db table rounds columns) :
    ∃ hashes, result (tableInfo host compile (tweakRow libversion lower) table) db rounds =
        some (.ok hashes) ∧
      hashes.map (hashAref · "dflt_value") =
        columns.map fun column => some (textValue (column.default.source.bind unquoted)) := by
  obtain ⟨program, hcompiles, hcolumns, hdrain⟩ := h
  have htweak (column : Column) : ∃ newRow,
      tweakRow libversion lower (zipToH program.columns column.row) = .ok newRow ∧
        hashAref newRow "dflt_value" =
          some (textValue (column.default.source.bind unquoted)) := by
    apply tweakRow_reports hversion lower
    · rw [hcolumns]
      rfl
    · rw [hcolumns]
      rfl
  have hrows : ∀ row ∈ columns.map Column.row, ∃ newRow,
      tweakRow libversion lower (zipToH program.columns row) = .ok newRow := by
    intro row hrow
    obtain ⟨column, -, rfl⟩ := List.mem_map.mp hrow
    obtain ⟨newRow, htweaked, -⟩ := htweak column
    exact ⟨newRow, htweaked⟩
  choose! newRow hnew using hrows
  refine ⟨(columns.map Column.row).map newRow, tableInfo_result hcompiles hdrain hnew, ?_⟩
  rw [List.map_map, List.map_map]
  apply List.map_congr_left
  intro column hcolumn
  obtain ⟨hash, htweaked, hreported⟩ := htweak column
  have hsame : newRow column.row = hash :=
    Outcome.ok.inj ((hnew _ (List.mem_map_of_mem hcolumn)).symm.trans htweaked)
  exact (congrArg (hashAref · "dflt_value") hsame).trans hreported

theorem textValue_injective : Function.Injective textValue := by
  intro text text' h
  cases text with
  | none =>
      cases text' with
      | none => rfl
      | some cs => cases h
  | some cs =>
      cases text' with
      | none => cases h
      | some cs' => exact congrArg some (Utf8.encode_injective (utf8StrNew_inj.mp h))

/-- A default is reported as it is meant exactly when no pattern stands where it does not
belong. -/
theorem Default.unquoted_iff (default : Default) :
    default.source.bind unquoted = default.meant ↔ default.Plain := by
  cases default with
  | absent => exact iff_of_true rfl trivial
  | null word h =>
      have hline : NullLine word := ⟨[], word, [], by simp, Or.inl rfl, h, Or.inl rfl⟩
      exact iff_of_true (unquoted_null hline) trivial
  | single s => exact unquoted_single_iff s
  | double s => exact unquoted_double_iff s
  | expression text _ _ => exact unquoted_eq_self_iff text

/-- `table_info` recovers the defaults of a table exactly when no line within one of them is
taken for a whole one. -/
theorem defaults_recovered_iff {libversion : Nat} (hversion : 3 < libversion)
    (lower : Char → List Char) {db : Database C} {table : List UInt8} {rounds : Nat}
    {columns : List Column} (h : Describes host compile db table rounds columns) :
    DefaultsRecovered host compile libversion lower db table rounds columns ↔
      ∀ column ∈ columns, column.default.Plain := by
  obtain ⟨hashes, hresult, hreported⟩ := tableInfo_reports hversion lower h
  have hsame : DefaultsRecovered host compile libversion lower db table rounds columns ↔
      columns.map (fun column => some (textValue (column.default.source.bind unquoted))) =
        columns.map fun column => some (textValue column.default.meant) := by
    constructor
    · rintro ⟨hashes', hresult', hmeant⟩
      obtain rfl := Outcome.ok.inj (Option.some.inj (hresult.symm.trans hresult'))
      rw [← hreported, hmeant]
    · intro hsame
      exact ⟨hashes, hresult, hreported.trans hsame⟩
  rw [hsame, List.map_inj_left]
  refine forall₂_congr fun column _ => ?_
  rw [Option.some_inj, textValue_injective.eq_iff]
  exact column.default.unquoted_iff

end Runs

/-- `create table t (a text default ...)` -/
def oneColumn (default : Default) : Column := ⟨0, ['a'], ['t', 'e', 'x', 't'], 0, default, 0⟩

def oneColumnProgram (source : Payload) : Program Unit :=
  oneRow ["cid", "name", "type", "notnull", "dflt_value", "pk"] (by decide)
    [.integer 0, .text ⟨[97], by decide⟩, .text ⟨[116, 101, 120, 116], by decide⟩, .integer 0,
      .text source, .integer 0]

theorem oneColumn_describes {default : Default} {source : Payload}
    (h : textValue default.source = utf8StrNew source.1) :
    Describes Statement.littleHost (fun _ _ => .statement (oneColumnProgram source) [])
      (newDatabase ()) [116] 1 [oneColumn default] := by
  refine ⟨oneColumnProgram source, ⟨rfl, _, [], rfl, rfl⟩, rfl, ?_⟩
  have hfirst : ((newDatabase ()).machine { program := oneColumnProgram source }).next.outcome =
      .ok (some (oneColumn default).row) := by
    rw [Column.row, oneColumn, h]
    rfl
  rw [Machine.drain_succ hfirst, Machine.drain_last rfl]
  rfl

/-- `default 'Hi'` -/
def hiSource : Payload := ⟨[39, 72, 105, 39], by decide⟩

theorem hi_recovered :
    DefaultsRecovered Statement.littleHost
      (fun _ _ => .statement (oneColumnProgram hiSource) []) 3003008 (fun c => [c.toLower])
      (newDatabase ()) [116] 1 [oneColumn (.single ['H', 'i'])] := by
  refine (defaults_recovered_iff (by decide) _ (oneColumn_describes rfl)).mpr ?_
  intro column hcolumn
  obtain rfl := List.mem_singleton.mp hcolumn
  rintro ⟨before, word, after, hs, -⟩
  have hmem : '\n' ∈ ['H', 'i'] := by
    rw [hs]
    simp
  exact absurd hmem (by decide)

/-- A string of three lines, of which the second is `null`. -/
def threeLines : List Char := ['a', '\n', 'n', 'u', 'l', 'l', '\n', 'b']

def threeLinesSource : Payload := ⟨[39, 97, 10, 110, 117, 108, 108, 10, 98, 39], by decide⟩

/-- The column is reported without a default. -/
theorem threeLines_not_recovered :
    ¬ DefaultsRecovered Statement.littleHost
      (fun _ _ => .statement (oneColumnProgram threeLinesSource) []) 3003008
      (fun c => [c.toLower]) (newDatabase ()) [116] 1 [oneColumn (.single threeLines)] := by
  rintro ⟨hashes, hresult, hmeant⟩
  have hdescribes : Describes Statement.littleHost
      (fun _ _ => .statement (oneColumnProgram threeLinesSource) []) (newDatabase ()) [116] 1
      [oneColumn (.single threeLines)] := oneColumn_describes rfl
  obtain ⟨hashes', hresult', hreported⟩ :=
    tableInfo_reports (by decide : 3 < 3003008) (fun c => [c.toLower]) hdescribes
  obtain rfl := Outcome.ok.inj (Option.some.inj (hresult.symm.trans hresult'))
  have hnull : InnerNullLine threeLines := ⟨['a'], ['n', 'u', 'l', 'l'], ['b'], rfl, rfl⟩
  have hsame := List.singleton_inj.mp (hreported.symm.trans hmeant)
  have hplain := (Default.single threeLines).unquoted_iff.mp
    (textValue_injective (Option.some.inj hsame))
  exact hplain hnull

end Sqlite3Ruby.Query
