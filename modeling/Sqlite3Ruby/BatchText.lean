import Mathlib.Data.List.Forall2
import Sqlite3Ruby.Batch

/-!
# The texts of `execute_batch2`

`execute_batch2` builds its rows by hand from C strings. They are compared with the rows
that `execute` returns for the statements of the script, one after the other, each as a
string in the encoding of the script.
-/

namespace Sqlite3Ruby.Query

variable {C : Type}

/-- The text behind a statement is a part of the text that SQLite was given. -/
structure PointsInto (compile : List UInt8 → C → Compiled C) : Prop where
  statement : ∀ text content program tail,
    compile text content = .statement program tail → tail <:+ text
  noStatement : ∀ text content tail, compile text content = .noStatement tail → tail <:+ text

/-- The rows that `execute` returns for the statements of a text of the script, one after the
other. -/
inductive ExecutesEach (host : Host) (compile : List UInt8 → C → Compiled C) (sql : RString)
    (rounds : Nat) : List UInt8 → Database C → List Row → Prop
  | finished {db} : ExecutesEach host compile sql rounds [] db []
  | noStatement {text tail db rows} (htext : text ≠ [])
      (hcompile : compile text db.content = .noStatement tail)
      (hrest : ExecutesEach host compile sql rounds tail db rows) :
      ExecutesEach host compile sql rounds text db rows
  | statement {text program tail db rows db' rest} (htext : text ≠ [])
      (hcompile : compile text db.content = .statement program tail)
      (hexecute : execute host compile { sql with bytes := text } (.array []) rounds db =
        some (.ok rows, db'))
      (hrest : ExecutesEach host compile sql rounds (tail.dropWhile isSqliteSpace) db' rest) :
      ExecutesEach host compile sql rounds text db (rows ++ rest)

/-- `prepare` hands the texts of the script to SQLite as they are, which is what `exec_batch`
does: they are their own UTF-8, and no longer than an `int` can tell. -/
def HandedAlike (host : Host) (sql : RString) : Prop :=
  ∀ text, text <:+ cString sql.bytes →
    strEncodeUtf8 host { sql with bytes := text } = .ok text ∧ sqlRead text = text

/-- What is to become of a value: a string keeps its bytes and its UTF-8, and `nil` stays
`nil`. Nothing is asked of a number. -/
def SameText : Value → Value → Prop
  | .string s, .string s' => s'.bytes = s.bytes ∧ (s.encoding = .utf8 → s'.encoding = .utf8)
  | .string _, _ => False
  | .nil, v' => v' = .nil
  | _, _ => True

/-- The rows have the same texts in the same columns. -/
def Row.SameTexts : Row → Row → Prop
  | .array values, .array values' => List.Forall₂ SameText values values'
  | .hash entries, .hash entries' =>
      List.Forall₂ (fun e e' => e.1 = e'.1 ∧ SameText e.2 e'.2) entries entries'
  | _, _ => False

def Row.values : Row → List Value
  | .header _ => []
  | .array values => values
  | .hash entries => entries.map (·.2)

/-- The value is no TEXT. -/
def NoText : Value → Prop
  | .string s => s.encoding ≠ .utf8
  | _ => True

/-- The value is no TEXT, and of a BLOB C sees every byte in the text that SQLite makes of
it. -/
def ComesThrough (columnText : SqliteValue → Option (List UInt8)) : Value → Prop
  | .string s => s.encoding ≠ .utf8 ∧ ∃ blob : Payload, blob.1 = s.bytes ∧
      (columnText (.blob blob)).map cString = some s.bytes
  | _ => True

/-! ## One value -/

section Values

variable {columnText : SqliteValue → Option (List UInt8)}

/-- What a callback makes of a value. -/
def callbackText (columnText : SqliteValue → Option (List UInt8)) (value : SqliteValue) : Value :=
  match columnText value with
  | some text => strNew (cString text)
  | none => .nil

/-- The two decodings of a value. -/
def Decodings (columnText : SqliteValue → Option (List UInt8)) (v v' : Value) : Prop :=
  ∃ value, v = columnToRb value ∧ v' = callbackText columnText value

theorem blob_sameText_iff (blob : Payload) :
    SameText (columnToRb (.blob blob)) (callbackText columnText (.blob blob)) ↔
      (columnText (.blob blob)).map cString = some blob.1 := by
  rw [callbackText]
  cases columnText (.blob blob) with
  | none => simp [SameText, columnToRb, strNew]
  | some text => simp [SameText, columnToRb, strNew]

theorem Decodings.sameText_iff (hnull : columnText .null = none) {v v' : Value}
    (h : Decodings columnText v v') : SameText v v' ↔ ComesThrough columnText v := by
  obtain ⟨value, rfl, rfl⟩ := h
  cases value with
  | null => simp [SameText, ComesThrough, columnToRb, callbackText, hnull]
  | integer n => simp [SameText, ComesThrough, columnToRb]
  | float d => simp [SameText, ComesThrough, columnToRb]
  | text bytes =>
      rw [callbackText]
      cases columnText (.text bytes) <;>
        simp [SameText, ComesThrough, columnToRb, utf8StrNew, strNew]
  | blob bytes =>
      rw [blob_sameText_iff]
      constructor
      · intro h
        exact ⟨by simp, bytes, rfl, h⟩
      · rintro ⟨-, blob, hblob, h⟩
        obtain rfl : blob = bytes := Subtype.ext hblob
        exact h

/-- A database in UTF-8 takes the bytes of a BLOB for its text. -/
theorem blob_comesThrough_iff (hblob : ∀ blob, columnText (.blob blob) = some blob.1)
    (bytes : Payload) : ComesThrough columnText (strNew bytes.1) ↔ 0 ∉ bytes.1 := by
  constructor
  · rintro ⟨-, blob, hbytes, h⟩
    rw [hblob, hbytes] at h
    have hcut : cString bytes.1 = bytes.1 := Option.some.inj h
    exact hcut ▸ zero_not_mem_cString bytes.1
  · intro hzero
    refine ⟨by simp, bytes, rfl, ?_⟩
    rw [hblob]
    exact congrArg some (cString_eq_self hzero)

end Values

/-! ## One row -/

section Rows

variable {columnText : SqliteValue → Option (List UInt8)} {R : Value → Value → Prop}

theorem hashAset_related {entries entries' : List (String × Value)}
    (h : List.Forall₂ (fun e e' => e.1 = e'.1 ∧ R e.2 e'.2) entries entries') (key : String)
    {v v' : Value} (hv : R v v') :
    List.Forall₂ (fun e e' => e.1 = e'.1 ∧ R e.2 e'.2) (hashAset entries key v)
      (hashAset entries' key v') := by
  have hany : entries.any (·.1 = key) = entries'.any (·.1 = key) := by
    induction h with
    | nil => rfl
    | cons hhead _ ih => rw [List.any_cons, List.any_cons, hhead.1, ih]
  rw [hashAset, hashAset, hany]
  split
  · rw [List.forall₂_map_left_iff, List.forall₂_map_right_iff]
    refine h.imp fun e e' he => ?_
    rw [he.1]
    split
    · exact ⟨rfl, hv⟩
    · exact he
  · exact List.rel_append h (.cons ⟨rfl, hv⟩ .nil)

theorem zipToH_related (hnil : R .nil .nil) (columns : List String) {values values' : List Value}
    (h : List.Forall₂ R values values') :
    List.Forall₂ (fun e e' => e.1 = e'.1 ∧ R e.2 e'.2) (zipToH columns values)
      (zipToH columns values') := by
  have hpadded : List.Forall₂ R (values ++ List.replicate columns.length .nil)
      (values' ++ List.replicate columns.length .nil) := by
    refine List.rel_append h (List.forall₂_same.mpr fun v hv => ?_)
    rwa [List.eq_of_mem_replicate hv]
  -- the hash so far is the other part of the invariant
  have hfold : ∀ (columns : List String) {padded padded' : List Value}
      {entries entries' : List (String × Value)}, List.Forall₂ R padded padded' →
      List.Forall₂ (fun e e' => e.1 = e'.1 ∧ R e.2 e'.2) entries entries' →
      List.Forall₂ (fun e e' => e.1 = e'.1 ∧ R e.2 e'.2)
        ((columns.zip padded).foldl (fun hash entry => hashAset hash entry.1 entry.2) entries)
        ((columns.zip padded').foldl (fun hash entry => hashAset hash entry.1 entry.2) entries') := by
    intro columns
    induction columns with
    | nil =>
        intro _ _ _ _ _ hentries
        exact hentries
    | cons column columns ih =>
        intro padded padded' entries entries' hpadded hentries
        cases hpadded with
        | nil => exact hentries
        | cons hv hrest => exact ih hrest (hashAset_related hentries column hv)
  exact hfold columns hpadded .nil

theorem values_sameTexts_iff (hnull : columnText .null = none) {values values' : List Value}
    (h : List.Forall₂ (Decodings columnText) values values') :
    List.Forall₂ SameText values values' ↔ ∀ v ∈ values, ComesThrough columnText v := by
  induction h with
  | nil => simp
  | cons hv _ ih => simp [hv.sameText_iff hnull, ih]

theorem entries_sameTexts_iff (hnull : columnText .null = none)
    {entries entries' : List (String × Value)}
    (h : List.Forall₂ (fun e e' => e.1 = e'.1 ∧ Decodings columnText e.2 e'.2) entries entries') :
    List.Forall₂ (fun e e' => e.1 = e'.1 ∧ SameText e.2 e'.2) entries entries' ↔
      ∀ v ∈ entries.map (·.2), ComesThrough columnText v := by
  induction h with
  | nil => simp
  | cons he _ ih =>
      rw [List.forall₂_cons, ih, he.2.sameText_iff hnull, and_iff_right he.1, List.map_cons,
        List.forall_mem_cons]

/-- The rows that the two methods make of the same results. -/
theorem row_sameTexts_iff (hnull : columnText .null = none) (rs : ResultSet)
    (columns : List String) (values : List SqliteValue) :
    (rs.row columns (values.map columnToRb)).SameTexts
        (batchRow columnText rs.isHash columns values) ↔
      ∀ v ∈ (rs.row columns (values.map columnToRb)).values, ComesThrough columnText v := by
  have hvalues : List.Forall₂ (Decodings columnText) (values.map columnToRb)
      (values.map (callbackText columnText)) := by
    rw [List.forall₂_map_left_iff, List.forall₂_map_right_iff]
    exact List.forall₂_same.mpr fun value _ => ⟨value, rfl, rfl⟩
  have hnil : Decodings columnText .nil .nil := by
    refine ⟨.null, rfl, ?_⟩
    rw [callbackText, hnull]
  rw [batchRow, ResultSet.row]
  cases rs.isHash with
  | false => exact values_sameTexts_iff hnull hvalues
  | true => exact entries_sameTexts_iff hnull (zipToH_related hnil columns hvalues)

end Rows

/-! ## One statement -/

section Statements

variable {α : Type} {stmt : Prepared} {columns : List String} {next : QueryM C (Option α)}
  {g : List Value → α} {callback : List SqliteValue → Row}

/-- What a step leaves does not depend on the record. -/
theorem stepped_same {m m' : Machine C} (hcontent : m.content = m'.content)
    (hstatement : m.statement = m'.statement) :
    m.stepped.content = m'.stepped.content ∧ m.stepped.statement = m'.stepped.statement := by
  obtain ⟨content, s, events⟩ := m
  obtain ⟨content', s', events'⟩ := m'
  obtain rfl : content = content' := hcontent
  obtain rfl : s = s' := hstatement
  have hnext : Machine.next ⟨content, s, events⟩ = Machine.next ⟨content, s, events'⟩ := rfl
  rw [Machine.stepped, Machine.stepped, hnext]
  cases Machine.next ⟨content, s, events'⟩ with
  | row pending values content => exact ⟨rfl, rfl⟩
  | done pending content => exact ⟨rfl, rfl⟩
  | error pending status errmsg content => exact ⟨rfl, rfl⟩

/-- A loop over the rows and `sqlite3_exec` come to the same results. -/
theorem rounds_together (hnext : HandsOut stmt columns next g) (limit rounds : Nat)
    {db db' : Database C} {s : Statement C} (h : db.statement stmt.id = some s)
    (hcolumns : s.program.columns = columns) (hdone : s.doneP = false) {typed typed' : List α}
    (hwhile : CallM.whileRounds next pushRow limit typed rounds db = some (.ok typed', db'))
    {m m' : Machine C} {rows rows' : List Row} (hcontent : m.content = db.content)
    (hstatement : m.statement = s)
    (hexec : execSteps callback limit m rows = some (.ok rows', m')) :
    ∃ results : List (List SqliteValue),
      typed' = typed ++ results.map (fun values => g (values.map columnToRb)) ∧
      rows' = rows ++ results.map callback ∧ m'.content = db'.content ∧
      db'.resultsAsHash = db.resultsAsHash := by
  have hm : m.next = (db.machine s).next := by
    rw [Machine.next, Machine.view, hcontent, hstatement]
    rfl
  obtain ⟨hcontent', hstatement'⟩ :
      m.stepped.content = (db.machine s).stepped.content ∧
        m.stepped.statement = (db.machine s).stepped.statement :=
    stepped_same hcontent hstatement
  rcases hnext.cases rounds h hcolumns hdone with
    ⟨hanswer, hrun⟩ | ⟨row, hanswer, hrun⟩ | ⟨e, db'', hanswer, hrun⟩
  · obtain ⟨content, hdoneAnswer⟩ := Answer.outcome_eq_none hanswer
    rw [CallM.whileRounds_none hrun] at hwhile
    obtain ⟨htyped, rfl⟩ := Prod.mk.inj (Option.some.inj hwhile)
    obtain rfl := Outcome.ok.inj htyped
    have hlast : execSteps callback limit m rows = some (.ok rows, m.stepped) := by
      unfold execSteps
      rw [hm, hdoneAnswer]
    obtain ⟨hrows, rfl⟩ := Prod.mk.inj (Option.some.inj (hlast.symm.trans hexec))
    obtain rfl := Outcome.ok.inj hrows
    exact ⟨[], by simp, by simp, hcontent', rfl⟩
  · cases limit with
    | zero =>
        rw [CallM.whileRounds_zero hrun] at hwhile
        cases hwhile
    | succ limit =>
        obtain ⟨values, content, hrowAnswer, rfl⟩ := Answer.outcome_eq_row hanswer
        rw [CallM.whileRounds_succ hrun] at hwhile
        have hsucc : execSteps callback (limit + 1) m rows =
            execSteps callback limit m.stepped (rows ++ [callback values]) := by
          conv_lhs => unfold execSteps
          rw [hm, hrowAnswer]
        rw [hsucc] at hexec
        have hput := Database.statement_put h (db.machine s).stepped
        obtain ⟨hcolumns', hdone'⟩ := stepped_keeps (db.machine s) hcolumns hdone
        obtain ⟨results, htyped, hrows, hlast, hhash⟩ := rounds_together hnext limit rounds hput
          hcolumns' hdone' hwhile hcontent' hstatement' hexec
        refine ⟨values :: results, ?_, ?_, hlast, hhash⟩
        · rw [htyped, List.map_cons, List.append_assoc]
          rfl
        · rw [hrows, List.map_cons, List.append_assoc]
          rfl
  · rw [CallM.whileRounds_raise hrun] at hwhile
    cases hwhile

variable {host : Host} {compile : List UInt8 → C → Compiled C} {program : Program C}
  {sql : RString} {text tail : List UInt8} {rounds : Nat} {db db' : Database C}

/-- `execute` of a text that compiles to a statement is a loop over its rows. -/
theorem execute_eq_ok (htext : strEncodeUtf8 host sql = .ok text)
    (hcompile : compile (sqlRead text) db.content = .statement program tail) {typed : List Row}
    (h : execute host compile sql (.array []) rounds db = some (.ok typed, db')) :
    ∃ stmt db₁, db' = db₁.without stmt.id ∧ stmt.id = db.statements.length ∧
      CallM.whileRounds (ResultSet.next ⟨stmt, db.resultsAsHash⟩) pushRow rounds [] rounds
        (db.push (some { program })) = some (.ok typed, db₁) := by
  have hopen : db.isOpen = true := by
    by_contra hclosed
    have hraise : prepare host compile sql rounds db =
        some (.raise ⟨.ArgumentError, "prepare called on a closed database"⟩, db) := by
      rw [prepare, CallM.get_bind, if_neg hclosed]
      rfl
    rw [execute, prepareBlock, CallM.bind_run_raise _ hraise] at h
    cases h
  have hprepare := prepare_statement rounds hopen htext hcompile
  have hnew := Database.statement_push db (some { program })
  let stmt : Prepared := ⟨db.statements.length, tail ++ sqlUnread text⟩
  have hblock : (do
      bindParams host stmt [.array []]
      let rs ← buildResultSet stmt
      rs.toA) rounds (db.push (some { program })) =
        ResultSet.toA ⟨stmt, db.resultsAsHash⟩ rounds (db.push (some { program })) :=
    CallM.bind_run_ok () _ (bindParams_empty hnew)
  rcases hrun : ResultSet.toA ⟨stmt, db.resultsAsHash⟩ rounds (db.push (some { program })) with
    _ | ⟨o, db₁⟩
  · have hnone : execute host compile sql (.array []) rounds db = none :=
      (CallM.bind_run_ok stmt _ hprepare).trans (CallM.ensure_none (hblock.trans hrun))
    rw [hnone] at h
    cases h
  · have hall : execute host compile sql (.array []) rounds db =
        some (o, db₁.without stmt.id) := by
      rw [execute]
      exact prepareBlock_run rounds hprepare (hblock.trans hrun)
    obtain ⟨ho, hdb⟩ := Prod.mk.inj (Option.some.inj (hall.symm.trans h))
    exact ⟨stmt, db₁, hdb.symm, rfl, ho ▸ hrun⟩

/-- `execute` and `sqlite3_exec` of a statement come to the same results. -/
theorem statement_together (htext : strEncodeUtf8 host sql = .ok text)
    (hcompile : compile (sqlRead text) db.content = .statement program tail)
    {typed rows rows' : List Row}
    (hexecute : execute host compile sql (.array []) rounds db = some (.ok typed, db'))
    {callback : List String → List SqliteValue → Row} {db₂ db₂' : Database C}
    (hcontent : db₂.content = db.content)
    (hexec : execStatement callback program rows rounds db₂ = some (.ok rows', db₂')) :
    ∃ results : List (List SqliteValue),
      typed = results.map (fun values => ResultSet.row ⟨⟨0, []⟩, db.resultsAsHash⟩
        program.columns (values.map columnToRb)) ∧
      rows' = rows ++ results.map (callback program.columns) ∧ db₂'.content = db'.content ∧
      db'.resultsAsHash = db.resultsAsHash := by
  obtain ⟨stmt, db₁, rfl, hid, hwhile⟩ := execute_eq_ok htext hcompile hexecute
  obtain ⟨⟨o, m⟩, hsteps, hpair⟩ := Option.map_eq_some_iff.mp hexec
  obtain ⟨rfl, rfl⟩ := Prod.mk.inj hpair
  have hnew : (db.push (some { program })).statement stmt.id = some { program } :=
    hid ▸ Database.statement_push db (some { program })
  have hmachine : (db₂.machine { program }).content = (db.push (some { program })).content :=
    hcontent
  obtain ⟨results, htyped, hrows, hlast, hhash⟩ := rounds_together (next_handsOut _ program.columns)
    rounds rounds hnew rfl rfl hwhile hmachine rfl hsteps
  refine ⟨results, htyped, hrows, ?_, ?_⟩
  · rw [Database.without_content]
    exact hlast
  · rw [Database.without]
    split <;> exact hhash

end Statements

/-! ## The script -/

section Scripts

variable {host : Host} {compile : List UInt8 → C → Compiled C} {sql : RString} {rounds : Nat}
  {columnText : SqliteValue → Option (List UInt8)}

/-- The statements of a script have the same results with `execute` and with
`sqlite3_exec`, when both read the same. -/
theorem script_together (hpoints : PointsInto compile) (halike : HandedAlike host sql)
    {callback : List String → List SqliteValue → Row} {text : List UInt8} {db : Database C}
    {typed : List Row} (htyped : ExecutesEach host compile sql rounds text db typed)
    (hsuffix : text <:+ cString sql.bytes)
    {limit : Nat} {e last : ExecState} {db₂ db₂' : Database C} (htext : e.text = text)
    (hcontent : db₂.content = db.content)
    (hexec : CallM.untilRounds ExecState.isFinished (execBody compile callback) limit e rounds db₂ =
      some (.ok last, db₂')) :
    ∃ results : List (List String × List SqliteValue),
      typed = results.map (fun r => ResultSet.row ⟨⟨0, []⟩, db.resultsAsHash⟩ r.1
        (r.2.map columnToRb)) ∧
      last.rows = e.rows ++ results.map (fun r => callback r.1 r.2) := by
  induction htyped generalizing limit e db₂ with
  | finished =>
      have hfinished : e.isFinished = true := by rw [ExecState.isFinished, htext]; rfl
      rw [CallM.untilRounds_finished hfinished] at hexec
      obtain ⟨hlast, -⟩ := Prod.mk.inj (Option.some.inj hexec)
      obtain rfl := Outcome.ok.inj hlast
      exact ⟨[], rfl, by simp⟩
  | @noStatement text tail db rows hne hcompile _ ih =>
      have hunfinished : ¬ e.isFinished = true := by simp [ExecState.isFinished, htext, hne]
      obtain ⟨limit', e', db₃, hbody, hrest⟩ := CallM.untilRounds_eq_ok hunfinished hexec
      rw [execBody, CallM.get_bind, htext, hcontent, hcompile] at hbody
      obtain ⟨he, rfl⟩ := Prod.mk.inj (Option.some.inj hbody)
      obtain rfl := Outcome.ok.inj he
      have hlater := ih ((hpoints.noStatement _ _ _ hcompile).trans hsuffix) (by rfl) hcontent hrest
      exact hlater
  | @statement text program tail db rows db' rest hne hcompile hexecute _ ih =>
      have hunfinished : ¬ e.isFinished = true := by simp [ExecState.isFinished, htext, hne]
      obtain ⟨limit', e', db₃, hbody, hnextRounds⟩ := CallM.untilRounds_eq_ok hunfinished hexec
      rw [execBody, CallM.get_bind, htext, hcontent, hcompile] at hbody
      obtain ⟨rows', db₄, hrows, hnext⟩ := CallM.bind_eq_ok hbody
      obtain ⟨he, rfl⟩ := Prod.mk.inj (Option.some.inj hnext)
      obtain rfl := Outcome.ok.inj he
      obtain ⟨hencode, hread⟩ := halike text hsuffix
      obtain ⟨results, hfirst, hadded, hcontent', hhash⟩ :=
        statement_together hencode (hread.symm ▸ hcompile) hexecute hcontent hrows
      have hrest : tail.dropWhile isSqliteSpace <:+ cString sql.bytes :=
        ((List.dropWhile_suffix _).trans (hpoints.statement _ _ _ _ hcompile)).trans hsuffix
      obtain ⟨results', hlater, hlast⟩ := ih hrest (by rfl) hcontent' hnextRounds
      refine ⟨results.map (program.columns, ·) ++ results', ?_, ?_⟩
      · rw [hfirst, hlater, hhash, List.map_append, List.map_map]
        rfl
      · rw [hlast, hadded, List.map_append, List.map_map, List.append_assoc]
        rfl

/-! ## The strings of the callbacks -/

section Callbacks

variable {callback : List String → List SqliteValue → Row} {db db' : Database C}

/-- The rows so far, and those that the callback has added. -/
def AddedBy (callback : List String → List SqliteValue → Row) (rows rows' : List Row) : Prop :=
  ∃ results : List (List String × List SqliteValue),
    rows' = rows ++ results.map fun r => callback r.1 r.2

theorem AddedBy.refl (rows : List Row) : AddedBy callback rows rows := ⟨[], by simp⟩

theorem AddedBy.trans {rows rows' rows'' : List Row} (h : AddedBy callback rows rows')
    (h' : AddedBy callback rows' rows'') : AddedBy callback rows rows'' := by
  obtain ⟨results, rfl⟩ := h
  obtain ⟨results', rfl⟩ := h'
  exact ⟨results ++ results', by simp⟩

theorem execSteps_rows {columns : List String} {limit : Nat} {m m' : Machine C}
    {rows rows' : List Row}
    (h : execSteps (callback columns) limit m rows = some (.ok rows', m')) :
    AddedBy callback rows rows' := by
  fun_induction execSteps (callback columns) limit m rows with
  | case1 m rows pending values content hanswer limit ih =>
      exact AddedBy.trans ⟨[(columns, values)], rfl⟩ (ih h)
  | case2 m rows pending values content hanswer => cases h
  | case3 limit m rows pending content hanswer =>
      obtain ⟨hrows, -⟩ := Prod.mk.inj (Option.some.inj h)
      exact Outcome.ok.inj hrows ▸ .refl rows
  | case4 limit m rows pending status errmsg content hanswer =>
      obtain ⟨e, he, -⟩ := check_errorStatus status errmsg
      rw [he] at h
      cases h

theorem execBody_rows {compile : List UInt8 → C → Compiled C} {e e' : ExecState} {rounds : Nat}
    (h : execBody compile callback e rounds db = some (.ok e', db')) :
    AddedBy callback e.rows e'.rows := by
  rw [execBody, CallM.get_bind] at h
  cases hcompile : compile e.text db.content with
  | error status errmsg =>
      rw [hcompile] at h
      obtain ⟨exception, he, -⟩ := check_errorStatus status errmsg
      obtain ⟨a, db₁, hcheck, -⟩ := CallM.bind_eq_ok h
      rw [he] at hcheck
      cases hcheck
  | noStatement tail =>
      rw [hcompile] at h
      obtain ⟨he, -⟩ := Prod.mk.inj (Option.some.inj h)
      exact Outcome.ok.inj he ▸ .refl e.rows
  | statement program tail =>
      rw [hcompile] at h
      obtain ⟨rows, db₁, hrows, hlast⟩ := CallM.bind_eq_ok h
      obtain ⟨he, -⟩ := Prod.mk.inj (Option.some.inj hlast)
      obtain rfl := Outcome.ok.inj he
      obtain ⟨⟨o, m⟩, hsteps, hpair⟩ := Option.map_eq_some_iff.mp hrows
      obtain ⟨rfl, -⟩ := Prod.mk.inj hpair
      exact execSteps_rows hsteps

/-- All rows of `sqlite3_exec` are made by the callback. -/
theorem exec_rows {compile : List UInt8 → C → Compiled C} {limit rounds : Nat} {e last : ExecState}
    (h : CallM.untilRounds ExecState.isFinished (execBody compile callback) limit e rounds db =
      some (.ok last, db')) : AddedBy callback e.rows last.rows := by
  induction limit generalizing e db with
  | zero =>
      rw [CallM.untilRounds] at h
      split at h
      · obtain ⟨he, -⟩ := Prod.mk.inj (Option.some.inj h)
        exact Outcome.ok.inj he ▸ .refl e.rows
      · cases h
  | succ limit ih =>
      rw [CallM.untilRounds] at h
      split at h
      · obtain ⟨he, -⟩ := Prod.mk.inj (Option.some.inj h)
        exact Outcome.ok.inj he ▸ .refl e.rows
      · obtain ⟨e', db₁, hbody, hrest⟩ := CallM.bind_eq_ok h
        exact (execBody_rows hbody).trans (ih hrest)

/-- What one of two related lists has, the other has too. -/
theorem forall_mem_of_forall₂ {α β : Type} {R : α → β → Prop} {P : α → Prop} {Q : β → Prop}
    (himp : ∀ a b, R a b → Q b → P a) {l : List α} {l' : List β} (h : List.Forall₂ R l l')
    (hQ : ∀ b ∈ l', Q b) : ∀ a ∈ l, P a := by
  induction h with
  | nil => simp
  | cons hab _ ih =>
      rw [List.forall_mem_cons] at hQ ⊢
      exact ⟨himp _ _ hab hQ.1, ih hQ.2⟩

/-- A callback makes no TEXT. -/
theorem batchRow_noText (columnText : SqliteValue → Option (List UInt8)) (isHash : Bool)
    (columns : List String) (values : List SqliteValue) :
    ∀ v ∈ (batchRow columnText isHash columns values).values, NoText v := by
  have hdata : ∀ v ∈ values.map (callbackText columnText), NoText v := by
    rw [List.forall_mem_map]
    intro value _
    rw [callbackText]
    cases columnText value with
    | none => trivial
    | some text => simp [NoText, strNew]
  cases isHash with
  | false => exact hdata
  | true =>
      have hentries := zipToH_related (R := fun _ v => NoText v) trivial columns
        (List.forall₂_same.mpr hdata)
      intro v hv
      obtain ⟨entry, hentry, rfl⟩ := List.mem_map.mp hv
      exact forall_mem_of_forall₂ (Q := fun _ => True) (fun _ _ h _ => h.2) hentries.flip
        (fun _ _ => trivial) entry hentry

/-- Rows with the texts of rows without TEXT have none themselves. -/
theorem noText_of_sameTexts {row row' : Row} (h : row.SameTexts row')
    (hrow' : ∀ v ∈ row'.values, NoText v) : ∀ v ∈ row.values, NoText v := by
  have hvalue : ∀ v v', SameText v v' → NoText v' → NoText v := by
    intro v v' hsame hv'
    cases v with
    | string s =>
        cases v' with
        | string s' => exact fun hutf8 => hv' (hsame.2 hutf8)
        | nil => cases hsame
        | true_ => cases hsame
        | false_ => cases hsame
        | integer n => cases hsame
        | float d => cases hsame
        | object klass toInt => cases hsame
    | nil => trivial
    | true_ => trivial
    | false_ => trivial
    | integer n => trivial
    | float d => trivial
    | object klass toInt => trivial
  cases row with
  | header columns => simp [Row.values]
  | array values =>
      cases row' with
      | array values' => exact forall_mem_of_forall₂ hvalue h hrow'
      | header columns => cases h
      | hash entries => cases h
  | hash entries =>
      cases row' with
      | hash entries' =>
          refine List.forall_mem_map.mpr (forall_mem_of_forall₂ ?_ h (List.forall_mem_map.mp hrow'))
          exact fun e e' he => hvalue e.2 e'.2 he.2
      | header columns => cases h
      | array values => cases h

end Callbacks

/-- `execute_batch2` returns the texts that `execute` returns when both read the same texts,
no result is TEXT and C sees every byte of the BLOBs. Both of the last are needed, TEXT for
every script. -/
theorem batchTexts_same_iff (hpoints : PointsInto compile)
    (columnText : SqliteValue → Option (List UInt8)) (hnull : columnText .null = none)
    (sql : RString) {db db' : Database C} {rows typed : List Row}
    (hbatch : executeBatch2 compile columnText sql rounds db = some (.ok rows, db'))
    (htyped : ExecutesEach host compile sql rounds (cString sql.bytes) db typed) :
    (HandedAlike host sql →
      (List.Forall₂ Row.SameTexts typed rows ↔
        ∀ row ∈ typed, ∀ v ∈ row.values, ComesThrough columnText v)) ∧
      (List.Forall₂ Row.SameTexts typed rows → ∀ row ∈ typed, ∀ v ∈ row.values, NoText v) := by
  have hopen : db.isOpen = true := by
    by_contra hclosed
    rw [executeBatch2, CallM.get_bind, if_neg hclosed] at hbatch
    cases hbatch
  rw [executeBatch2, CallM.get_bind, if_pos hopen] at hbatch
  obtain ⟨last, db₂, hloop, hreturn⟩ := CallM.bind_eq_ok hbatch
  obtain ⟨hrows, -⟩ := Prod.mk.inj (Option.some.inj hreturn)
  obtain rfl := Outcome.ok.inj hrows
  constructor
  · intro halike
    obtain ⟨results, rfl, hlast⟩ :=
      script_together hpoints halike htyped (List.suffix_refl _) rfl rfl hloop
    rw [hlast, List.nil_append, List.forall₂_map_left_iff, List.forall₂_map_right_iff,
      List.forall₂_same, List.forall_mem_map]
    exact forall₂_congr fun r _ => row_sameTexts_iff hnull _ r.1 r.2
  · intro hsame
    obtain ⟨results, hmade⟩ := exec_rows hloop
    refine forall_mem_of_forall₂ (R := Row.SameTexts)
      (fun _ _ h => noText_of_sameTexts h) hsame ?_
    rw [hmade, List.nil_append]
    exact List.forall_mem_map.mpr fun r _ => batchRow_noText columnText _ r.1 r.2

end Scripts

theorem knows_pointsInto (known : List UInt8) (program : Program C) :
    PointsInto (knows known program) := by
  constructor
  · intro text content program' tail h
    unfold knows at h
    split at h
    · cases h
    · split at h
      · obtain ⟨-, rfl⟩ := Compiled.statement.inj h
        exact List.nil_suffix
      · cases h
  · intro text content tail h
    unfold knows at h
    split at h
    · obtain rfl := Compiled.noStatement.inj h
      exact List.nil_suffix
    · split at h
      · cases h
      · cases h

/-- The texts of a database in UTF-8, for scripts without numbers. -/
def utf8Text : SqliteValue → Option (List UInt8)
  | .text bytes => some bytes.1
  | .blob bytes => some bytes.1
  | _ => none

/-- `select x'ff' as b, null as n` -/
def blobProgram : Program Unit :=
  oneRow ["b", "n"] (by decide) [.blob ⟨[0xFF], by decide⟩, .null]

/-- `select char(97, 0, 98) as t` -/
def nulTextProgram : Program Unit := oneRow ["t"] (by decide) [.text ⟨[97, 0, 98], by decide⟩]

/-- A script in UTF-8 is handed on as it is. -/
theorem utf8_handedAlike (host : Host) {text : List UInt8} (hshort : text.length < 2 ^ 32) :
    HandedAlike host (utf8String text) := by
  intro part hpart
  refine ⟨rfl, ?_⟩
  have hlength : part.length < 2 ^ 32 :=
    (hpart.length_le.trans (List.takeWhile_sublist _).length_le).trans_lt hshort
  have hzero : 0 ∉ part := fun h => zero_not_mem_cString text (hpart.subset h)
  rw [sqlRead_eq hlength, cString_eq_self hzero]

theorem blob_comesThrough :
    List.Forall₂ Row.SameTexts [.array [strNew [0xFF], .nil]] [.array [strNew [0xFF], .nil]] := by
  have htyped : ExecutesEach Statement.littleHost (knows knownText blobProgram)
      (utf8String knownText) 2 (cString (utf8String knownText).bytes) (newDatabase ())
      ([.array [strNew [0xFF], .nil]] ++ []) :=
    .statement (by decide) rfl rfl .finished
  apply ((batchTexts_same_iff (knows_pointsInto _ _) utf8Text rfl (utf8String knownText) rfl
    htyped).1 (utf8_handedAlike _ (by decide))).mpr
  have hblob : ComesThrough utf8Text (strNew [0xFF]) :=
    (blob_comesThrough_iff (fun _ => rfl) ⟨[0xFF], by decide⟩).mpr (by decide)
  intro row hrow v hv
  obtain rfl := List.mem_singleton.mp hrow
  rcases List.mem_cons.mp hv with rfl | hv
  · exact hblob
  · obtain rfl := List.mem_singleton.mp hv
    trivial

/-- `execute` returns the whole text, and `execute_batch2` what comes before its NUL. -/
theorem nulText_cut :
    ∃ rows typed db', executeBatch2 (knows knownText nulTextProgram) utf8Text
        (utf8String knownText) 2 (newDatabase ()) = some (.ok rows, db') ∧
      ExecutesEach Statement.littleHost (knows knownText nulTextProgram) (utf8String knownText) 2
        knownText (newDatabase ()) typed ∧
      ¬ List.Forall₂ Row.SameTexts typed rows := by
  refine ⟨[.array [strNew [97]]], [.array [utf8StrNew [97, 0, 98]]] ++ [], _, rfl,
    .statement (by decide) rfl rfl .finished, ?_⟩
  intro hsame
  simp [Row.SameTexts, SameText, utf8StrNew, strNew] at hsame

end Sqlite3Ruby.Query
