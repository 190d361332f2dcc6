import Sqlite3Ruby.QueryPaths

/-!
# Scripts

`execute_batch` prepares and steps the statements of a script one after the other;
`execute_batch2` leaves this to `sqlite3_exec`. Only the second steps a statement until
it is done, so they come apart where a statement does work after its first row.

## Implementation notes

What is needed of SQLite about texts is that it passes over the whitespace before a
statement, and that what follows the semicolon of a statement has no part in it. Whitespace
after a statement without a semicolon may have: `create index` keeps it in `sqlite_schema`.
-/

namespace Sqlite3Ruby.Query

variable {C : Type}

/-! ## `execute_batch` -/

/-- The variables of the loop of `execute_batch`. -/
structure BatchState where
  sql : RString
  result : Option (List Value)

section Methods

variable (host : Host) (compile : List UInt8 → C → Compiled C)

/-- What is done with a statement `unless stmt.closed?`. `length` is what
`bind_vars.length` answers. -/
def batchStep (vars : BindVar) (length : Outcome Nat) (stmt : Prepared)
    (result : Option (List Value)) : QueryM C (Option (List Value)) := do
  let db ← CallM.get
  if (db.statement stmt.id).isNone then pure result
  else do
    let length ← CallM.lift length
    let count ← bindParameterCount stmt
    if length = count then bindParams host stmt [vars] else pure ()
    step stmt

/-- The body of the loop. -/
def batchBody (vars : BindVar) (length : Outcome Nat) (b : BatchState) : QueryM C BatchState :=
  prepareBlock host compile b.sql fun stmt => do
    let result ← batchStep host vars length stmt b.result
    let sql ← CallM.lift ((utf8String stmt.remainder).strip host)
    pure ⟨sql, result⟩

def BatchState.isFinished (b : BatchState) : Bool := b.sql.bytes.isEmpty

/-- `execute_batch`. -/
def executeBatch (sql : RString) (vars : BindVar) (length : Outcome Nat) :
    QueryM C (Option (List Value)) := do
  let sql ← CallM.lift (sql.strip host)
  let b ← CallM.loopUntil BatchState.isFinished (batchBody host compile vars length) ⟨sql, none⟩
  pure b.result

/-! ## `execute_batch2` -/

/-- The variables of the loop of `sqlite3_exec`. -/
structure ExecState where
  text : List UInt8
  rows : List Row

/-- The steps of a statement, until it has no more rows. -/
def execSteps (callback : List SqliteValue → Row) :
    Nat → Machine C → List Row → Option (Outcome (List Row) × Machine C)
  | rounds, m, rows =>
      match m.next, rounds with
      | .row _ values _, rounds + 1 =>
          execSteps callback rounds m.stepped (rows ++ [callback values])
      | .row _ _ _, 0 => none
      | .done _ _, _ => some (.ok rows, m.stepped)
      | .error _ status errmsg _, _ => some (check status.1 errmsg >>= fun _ => .ok rows, m.stepped)

/-- A statement of `sqlite3_exec`. -/
def execStatement (callback : List String → List SqliteValue → Row) (program : Program C)
    (rows : List Row) : QueryM C (List Row) := fun rounds db =>
  (execSteps (callback program.columns) rounds (db.machine { program }) rows).map fun r =>
    (r.1, { db with content := r.2.content, events := r.2.events })

/-- The spaces that `sqlite3_exec` skips. -/
def isSqliteSpace (b : UInt8) : Bool := b ≠ 0 && isSpace b.toNat

/-- The body of the loop of `sqlite3_exec`. -/
def execBody (callback : List String → List SqliteValue → Row) (e : ExecState) :
    QueryM C ExecState := do
  let db ← CallM.get
  match compile e.text db.content with
  | .error status errmsg => do
      CallM.lift (check status.1 errmsg)
      pure e
  | .noStatement tail => pure ⟨tail, e.rows⟩
  | .statement program tail => do
      let rows ← execStatement callback program e.rows
      pure ⟨tail.dropWhile isSqliteSpace, rows⟩

def ExecState.isFinished (e : ExecState) : Bool := e.text.isEmpty

/-- `hash_callback_function` and `regular_callback_function`. `columnText` is the text
that SQLite makes of a value. -/
def batchRow (columnText : SqliteValue → Option (List UInt8)) (isHash : Bool)
    (columns : List String) (values : List SqliteValue) : Row :=
  let data := values.map fun value =>
    match columnText value with
    | some text => strNew (cString text)
    | none => .nil
  if isHash then .hash (zipToH columns data) else .array data

/-- `exec_batch`, which is `execute_batch2` without a block. -/
def executeBatch2 (columnText : SqliteValue → Option (List UInt8)) (sql : RString) :
    QueryM C (List Row) := do
  let db ← CallM.get
  if db.isOpen then do
    let e ← CallM.loopUntil ExecState.isFinished
      (execBody compile (batchRow columnText db.resultsAsHash)) ⟨cString sql.bytes, []⟩
    pure e.rows
  else CallM.lift (.raise ⟨.SQLite3Exception, "cannot use a closed database"⟩)

end Methods

/-! ## What is compared -/

/-- The second text is the first with whitespace around it. -/
def Surrounded (text text' : List UInt8) : Prop :=
  ∃ left right, (∀ b ∈ left, isSpace b.toNat = true) ∧ (∀ b ∈ right, isSpace b.toNat = true) ∧
    text' = left ++ text ++ right

/-- The text after a statement is what comes behind its semicolon. -/
def Follows (text tail : List UInt8) : Prop := tail = [] ∨ ∃ init, text = init ++ 59 :: tail

/-- How SQLite cuts a C string into statements. -/
structure CutsTexts (compile : List UInt8 → C → Compiled C) : Prop where
  statement_follows : ∀ text content program tail, 0 ∉ text →
    compile text content = .statement program tail → Follows text tail
  noStatement_follows : ∀ text content tail, 0 ∉ text →
    compile text content = .noStatement tail → Follows text tail
  statement_space : ∀ left text content program tail, (∀ b ∈ left, isSpace b.toNat = true) →
    0 ∉ left ++ text → compile (left ++ text) content = .statement program tail →
      compile text content = .statement program tail
  statement_rest : ∀ init tail tail' content program, tail ≠ [] → 0 ∉ init ++ 59 :: tail →
    0 ∉ tail' → compile (init ++ 59 :: tail) content = .statement program tail →
      compile (init ++ 59 :: tail') content = .statement program tail'
  noStatement_surrounded : ∀ text text' content tail, Surrounded text text' → 0 ∉ text' →
    compile text' content = .noStatement tail →
      ∃ tail', compile text content = .noStatement tail' ∧
        stripSpaces UInt8.toNat tail' = stripSpaces UInt8.toNat tail
  blank : ∀ content program tail, compile [] content ≠ .statement program tail

/-- A script that both methods hand to SQLite as it is: a valid string of an encoding that
agrees with UTF-8 on it, with no NUL among the spaces that it begins with, and no longer
than an `int` can tell. -/
structure Plain (host : Host) (sql : RString) : Prop where
  valid : ∃ cs, sql.bytes = Utf8.encode cs
  strip : sql.strip host = .ok { sql with bytes := stripSpaces UInt8.toNat sql.bytes }
  encode : strEncodeUtf8 host { sql with bytes := stripSpaces UInt8.toNat sql.bytes } =
    .ok (stripSpaces UInt8.toNat sql.bytes)
  head : (sql.bytes.dropWhile isSqliteSpace).head? ≠ some 0
  short : (stripSpaces UInt8.toNat sql.bytes).length < 2 ^ 32

/-- `execute_batch` of a script without bind variables, up to this statement. -/
def batchUpTo (host : Host) (compile : List UInt8 → C → Compiled C) (sql : RString) (k : Nat) :
    QueryM C BatchState := do
  let sql ← CallM.lift (sql.strip host)
  CallM.firstRounds BatchState.isFinished (batchBody host compile (.array []) (.ok 0)) k ⟨sql, none⟩

/-- `execute_batch2` up to this statement. -/
def execUpTo (compile : List UInt8 → C → Compiled C)
    (columnText : SqliteValue → Option (List UInt8)) (sql : RString) (k : Nat) :
    QueryM C ExecState := do
  let db ← CallM.get
  CallM.firstRounds ExecState.isFinished (execBody compile (batchRow columnText db.resultsAsHash)) k
    ⟨cString sql.bytes, []⟩

/-- The calls return, and leave the same content. -/
def SameContent {α β : Type} (call : QueryM C α) (call' : QueryM C β) (rounds : Nat)
    (db : Database C) : Prop :=
  ∃ a db₁ b db₂, call rounds db = some (.ok a, db₁) ∧ call' rounds db = some (.ok b, db₂) ∧
    db₁.content = db₂.content

/-- The methods have the same effect, with the whole script and with each initial part. -/
structure SameEffect (host : Host) (compile : List UInt8 → C → Compiled C)
    (columnText : SqliteValue → Option (List UInt8)) (sql : RString) (rounds : Nat)
    (db : Database C) : Prop where
  whole : SameContent (executeBatch host compile sql (.array []) (.ok 0))
    (executeBatch2 compile columnText sql) rounds db
  parts : ∀ k, SameContent (batchUpTo host compile sql k) (execUpTo compile columnText sql k)
    rounds db

/-- Whitespace behind a last statement without a semicolon has no part in the statement. -/
def IgnoresEndSpace (compile : List UInt8 → C → Compiled C)
    (columnText : SqliteValue → Option (List UInt8)) (sql : RString) (rounds : Nat)
    (db : Database C) : Prop :=
  ∀ k e db₁ program, execUpTo compile columnText sql k rounds db = some (.ok e, db₁) →
    compile e.text db₁.content = .statement program [] →
      ∀ text right, e.text = text ++ right → (∀ b ∈ right, isSpace b.toNat = true) →
        compile text db₁.content = .statement program []

/-- Each statement of the script, run where the ones before it have left the database, has
done all its work after its first step, which leaves no exception pending. -/
def WorksAtOnce (compile : List UInt8 → C → Compiled C)
    (columnText : SqliteValue → Option (List UInt8)) (sql : RString) (rounds : Nat)
    (db : Database C) : Prop :=
  ∀ k e db₁ program tail, execUpTo compile columnText sql k rounds db = some (.ok e, db₁) →
    e.text ≠ [] → compile e.text db₁.content = .statement program tail →
      let answer := (db₁.machine { program }).next
      answer.pending = none ∧ ∀ e' db₂,
        execUpTo compile columnText sql (k + 1) rounds db = some (.ok e', db₂) →
          db₂.content = answer.content

/-! ## Texts -/

/-- Strings are stripped of whitespace on both sides. -/
theorem surrounded_strip (text : List UInt8) : Surrounded (stripSpaces UInt8.toNat text) text := by
  let space (b : UInt8) : Bool := isSpace b.toNat
  refine ⟨text.takeWhile space, (text.dropWhile space).rtakeWhile space, ?_, ?_, ?_⟩
  · intro b hb
    have hspace : space b = true := List.mem_takeWhile_imp hb
    exact hspace
  · intro b hb
    have hspace : space b = true := List.mem_rtakeWhile_imp hb
    exact hspace
  · calc text
        = text.takeWhile space ++ text.dropWhile space := (List.takeWhile_append_dropWhile).symm
      _ = text.takeWhile space ++ ((text.dropWhile space).rdropWhile space ++
            (text.dropWhile space).rtakeWhile space) := by
          rw [List.rdropWhile_append_rtakeWhile]
      _ = _ := (List.append_assoc _ _ _).symm

theorem isSpace_of_isSqliteSpace {b : UInt8} (h : isSqliteSpace b = true) :
    isSpace b.toNat = true := (Bool.and_eq_true _ _ ▸ h).2

/-- What `sqlite3_exec` skips is stripped anyway. -/
theorem strip_dropWhile (text : List UInt8) :
    stripSpaces UInt8.toNat (text.dropWhile isSqliteSpace) = stripSpaces UInt8.toNat text := by
  have hdrop : (text.dropWhile isSqliteSpace).dropWhile (fun b => isSpace b.toNat) =
      text.dropWhile fun b => isSpace b.toNat := by
    induction text with
    | nil => rfl
    | cons b text ih =>
        cases h : isSqliteSpace b with
        | true =>
            have hspace := isSpace_of_isSqliteSpace h
            rw [List.dropWhile_cons_of_pos h, ih, List.dropWhile_cons, if_pos hspace]
        | false => rw [List.dropWhile_cons_of_neg (by simp [h])]
  rw [stripSpaces, stripSpaces, hdrop]

theorem cString_append {text : List UInt8} (h : 0 ∉ text) (rest : List UInt8) :
    cString (text ++ rest) = text ++ cString rest := by
  refine List.takeWhile_append_of_pos fun b hb => ?_
  have hne : b ≠ 0 := by
    rintro rfl
    exact h hb
  simpa using hne

/-- The text that C sees begins the string, and ends it or comes before a NUL. -/
theorem cString_split (text : List UInt8) :
    cString text = text ∨ ∃ rest, text = cString text ++ 0 :: rest := by
  have hsplit : cString text ++ text.dropWhile (· ≠ 0) = text := List.takeWhile_append_dropWhile
  cases hrest : text.dropWhile (· ≠ 0) with
  | nil =>
      rw [hrest, List.append_nil] at hsplit
      exact Or.inl hsplit
  | cons b rest =>
      have hhead := List.head?_dropWhile_not (· ≠ (0 : UInt8)) text
      rw [hrest] at hhead
      obtain rfl : b = 0 := by simpa using hhead
      exact Or.inr ⟨rest, by rw [← hrest, hsplit]⟩

/-- The first NUL ends what C sees of a longer string too. -/
theorem cString_append_spaces (text : List UInt8) {right : List UInt8}
    (h : ∀ b ∈ right, isSpace b.toNat = true) :
    ∃ right', (∀ b ∈ right', isSpace b.toNat = true) ∧
      cString (text ++ right) = cString text ++ right' := by
  rcases cString_split text with heq | ⟨rest, hrest⟩
  · refine ⟨cString right, fun b hb => h b (List.takeWhile_sublist _ |>.subset hb), ?_⟩
    rw [cString_append (heq ▸ zero_not_mem_cString text), heq]
  · refine ⟨[], by simp, ?_⟩
    calc cString (text ++ right)
        = cString (cString text ++ 0 :: (rest ++ right)) := by
          rw [show text ++ right = cString text ++ 0 :: (rest ++ right) by
            conv_lhs => rw [hrest]
            simp]
      _ = cString text ++ cString (0 :: (rest ++ right)) :=
          cString_append (zero_not_mem_cString text) _
      _ = cString text ++ [] := rfl

theorem valid_cString {text : List UInt8} (h : ∃ cs, text = Utf8.encode cs) :
    ∃ cs, cString text = Utf8.encode cs := by
  obtain ⟨cs, hcs⟩ := h
  rcases cString_split text with heq | ⟨rest, hrest⟩
  · exact ⟨cs, heq.trans hcs⟩
  · exact (Utf8.encode_split (by decide) (hcs.symm.trans hrest)).1

theorem Surrounded.valid {text text' : List UInt8} (h : Surrounded text text')
    (hvalid : ∃ cs, text' = Utf8.encode cs) : ∃ cs, text = Utf8.encode cs := by
  obtain ⟨left, right, hleft, hright, rfl⟩ := h
  have htext : ∃ cs, left ++ text = Utf8.encode cs := by
    cases right with
    | nil => rwa [List.append_nil] at hvalid
    | cons b right =>
        obtain ⟨cs, hcs⟩ := hvalid
        exact (Utf8.encode_split (isSpace_lt (hright b (by simp))) hcs.symm).1
  clear hvalid
  induction left with
  | nil => exact htext
  | cons b left ih =>
      obtain ⟨cs, hcs⟩ := htext
      have hsplit := Utf8.encode_split (l := []) (isSpace_lt (hleft b (by simp))) hcs.symm
      exact ih (fun b' hb' => hleft b' (by simp [hb'])) hsplit.2

theorem valid_strip {text : List UInt8} (h : ∃ cs, text = Utf8.encode cs) :
    ∃ cs, stripSpaces UInt8.toNat text = Utf8.encode cs := (surrounded_strip text).valid h

theorem Follows.valid {text tail : List UInt8} (h : Follows text tail)
    (hvalid : ∃ cs, text = Utf8.encode cs) : ∃ cs, tail = Utf8.encode cs := by
  obtain ⟨cs, hcs⟩ := hvalid
  rcases h with rfl | ⟨init, hinit⟩
  · exact ⟨[], rfl⟩
  · exact (Utf8.encode_split (by decide) (hcs.symm.trans hinit)).2

theorem Follows.zero_not_mem {text tail : List UInt8} (h : Follows text tail) (hzero : 0 ∉ text) :
    0 ∉ tail := by
  rcases h with rfl | ⟨init, rfl⟩
  · simp
  · simp_all

theorem strip_utf8String (host : Host) {text : List UInt8} (h : ∃ cs, text = Utf8.encode cs) :
    (utf8String text).strip host = .ok (utf8String (stripSpaces UInt8.toNat text)) := by
  have hvalid : (utf8String text).isBroken = false := by
    rw [RString.isBroken, utf8String]
    simpa using (Utf8.validateUTF8_iff text).mpr h
  rw [RString.strip, hvalid, if_neg Bool.false_ne_true]
  rfl

theorem strip_append_spaces (text : List UInt8) {right : List UInt8}
    (h : ∀ b ∈ right, isSpace b.toNat = true) :
    stripSpaces UInt8.toNat (text ++ right) = stripSpaces UInt8.toNat text := by
  rw [stripSpaces, stripSpaces, List.dropWhile_append]
  split
  · rename_i hnil
    rw [List.isEmpty_iff.mp hnil, List.dropWhile_eq_nil_iff.mpr h]
  · rw [List.rdropWhile, List.rdropWhile, List.reverse_append, List.dropWhile_append_of_pos]
    intro b hb
    exact h b (List.mem_reverse.mp hb)

theorem Surrounded.strip_eq {text text' : List UInt8} (h : Surrounded text text') :
    stripSpaces UInt8.toNat text' = stripSpaces UInt8.toNat text := by
  obtain ⟨left, right, hleft, hright, rfl⟩ := h
  rw [strip_append_spaces _ hright, stripSpaces, List.dropWhile_append_of_pos hleft]
  rfl

theorem Follows.length_le {text tail : List UInt8} (h : Follows text tail) :
    tail.length ≤ text.length := by
  rcases h with rfl | ⟨init, rfl⟩
  · exact Nat.zero_le _
  · simp
    omega

/-- A text in which a statement is found has the same statement in it without the whitespace
around it. -/
theorem CutsTexts.statement_surrounded {compile : List UInt8 → C → Compiled C}
    (hcuts : CutsTexts compile) {text text' tail : List UInt8} {content : C} {program : Program C}
    (h : Surrounded text text') (hzero : 0 ∉ text')
    (hcompile : compile text' content = .statement program tail)
    (hend : tail = [] → ∀ init right, text' = init ++ right →
      (∀ b ∈ right, isSpace b.toNat = true) → compile init content = .statement program []) :
    ∃ tail', compile text content = .statement program tail' ∧
      stripSpaces UInt8.toNat tail' = stripSpaces UInt8.toNat tail := by
  obtain ⟨left, right, hleft, hright, rfl⟩ := h
  rw [List.append_assoc] at hzero hcompile
  have hspace := hcuts.statement_space _ _ _ _ _ hleft hzero hcompile
  have hzero' : 0 ∉ text ++ right := fun hmem => hzero (List.mem_append_right left hmem)
  by_cases htail : tail = []
  · subst htail
    have hzero'' : 0 ∉ left ++ text := fun hmem => hzero (by
      rw [← List.append_assoc]
      exact List.mem_append_left right hmem)
    exact ⟨[], hcuts.statement_space _ _ _ _ _ hleft hzero'' (hend rfl _ right rfl hright), rfl⟩
  · obtain ⟨init, hinit⟩ :=
      (hcuts.statement_follows _ _ _ _ hzero' hspace).resolve_left htail
    have hmem : (59 : UInt8) ∉ right := fun hmem => absurd (hright 59 hmem) (by decide)
    -- the semicolon stands before the whitespace
    obtain ⟨rest, rfl, rfl⟩ : ∃ rest, text = init ++ 59 :: rest ∧ tail = rest ++ right := by
      rcases List.append_eq_append_iff.mp hinit with ⟨a, -, hright'⟩ | ⟨c, htext, hrest⟩
      · exact absurd (hright' ▸ by simp) hmem
      · cases c with
        | nil =>
            have hright' : 59 :: tail = right := hrest
            exact absurd (hright' ▸ List.mem_cons_self) hmem
        | cons b c =>
            obtain ⟨rfl, htail'⟩ := List.cons.inj hrest
            exact ⟨c, htext, htail'⟩
    have hzero₁ : 0 ∉ rest := fun hrest => hzero' (by simp [hrest])
    rw [hinit] at hspace hzero'
    exact ⟨rest, hcuts.statement_rest _ _ _ _ _ htail hzero' hzero₁ hspace,
      (strip_append_spaces rest hright).symm⟩

/-! ## A database that knows one statement -/

def knows (known : List UInt8) (program : Program C) (text : List UInt8) (_ : C) : Compiled C :=
  if stripSpaces UInt8.toNat text = [] then .noStatement []
  else if stripSpaces UInt8.toNat text = known then .statement program []
  else .error ⟨1, Nat.one_ne_zero⟩ "syntax error"

theorem knows_append_spaces (known : List UInt8) (program : Program C) (text : List UInt8)
    {right : List UInt8} (h : ∀ b ∈ right, isSpace b.toNat = true) (content : C) :
    knows known program (text ++ right) content = knows known program text content := by
  simp only [knows, strip_append_spaces text h]

theorem knows_cutsTexts (known : List UInt8) (program : Program C) :
    CutsTexts (knows known program) := by
  have hstatement {text : List UInt8} {content : C} {program' : Program C} {tail : List UInt8}
      (h : knows known program text content = .statement program' tail) : tail = [] := by
    simp only [knows] at h
    split at h
    · cases h
    · split at h
      · exact (Compiled.statement.inj h).2.symm
      · cases h
  have hnone {text : List UInt8} {content : C} {tail : List UInt8}
      (h : knows known program text content = .noStatement tail) : tail = [] := by
    simp only [knows] at h
    split at h
    · exact (Compiled.noStatement.inj h).symm
    · split at h <;> cases h
  have hsame {text text' : List UInt8} (content : C) (h : Surrounded text text') :
      knows known program text' content = knows known program text content := by
    rw [knows, knows, h.strip_eq]
  constructor
  · exact fun _ _ _ _ _ h => Or.inl (hstatement h)
  · exact fun _ _ _ _ h => Or.inl (hnone h)
  · intro left text content program' tail hleft _ h
    have hsurrounded : Surrounded text (left ++ text) := ⟨left, [], hleft, by simp, by simp⟩
    exact (hsame content hsurrounded).symm.trans h
  · exact fun _ _ _ _ _ htail _ _ h => absurd (hstatement h) htail
  · exact fun _ _ content tail hs _ h => ⟨tail, (hsame content hs).symm.trans h, rfl⟩
  · intro content program' tail h
    cases h

/-! ## One statement of `execute_batch` -/

section Body

variable {host : Host} {compile : List UInt8 → C → Compiled C} {program : Program C}
  {tail : List UInt8} {rounds : Nat} {db : Database C} {b : BatchState}

theorem bindParams_empty {stmt : Prepared} {s : Statement C} (h : db.statement stmt.id = some s) :
    bindParams host stmt [.array []] rounds db = some (.ok (), db) := by
  rw [bindParams, CallM.get_bind, h, if_neg (by simp), onStatement_run h]
  exact congrArg (fun db' => some (Outcome.ok (), db')) (Database.put_machine h)

/-- An open statement is stepped once. -/
theorem batchStep_run {stmt : Prepared} {s : Statement C} (h : db.statement stmt.id = some s)
    (result : Option (List Value)) :
    batchStep host (.array []) (.ok 0) stmt result rounds db = step stmt rounds db := by
  have hcount := onStatement_read h (·.statement.program.parameterCount) rounds
  rw [batchStep, CallM.get_bind, h, if_neg (by simp), CallM.lift_ok_bind, bindParameterCount,
    CallM.bind_run_ok _ _ hcount]
  split
  · rw [CallM.bind_run_ok () _ (bindParams_empty h)]
  · rfl

/-- The first step of a new statement. -/
theorem step_new (stmt : Prepared) (rounds : Nat) (h : db.statement stmt.id = some { program })
    {row : Option (List Value)}
    (hanswer : (db.machine { program }).next.outcome = .ok row) :
    ∃ m, step stmt rounds db = some (.ok row, db.put stmt.id m) ∧
      m.content = (db.machine { program }).next.content := by
  have hrun := step_run h rounds
  have hcontent := stepped_content (db.machine { program })
  cases row with
  | none =>
      rw [Statement.step_last rfl hanswer] at hrun
      exact ⟨_, hrun, hcontent⟩
  | some row =>
      rw [Statement.step_row rfl hanswer] at hrun
      exact ⟨_, hrun, hcontent⟩

/-- `execute_batch` steps the statement, and goes on after it. -/
theorem batchBody_statement (rounds : Nat) (hopen : db.isOpen = true)
    (hencode : strEncodeUtf8 host b.sql = .ok b.sql.bytes) (hshort : b.sql.bytes.length < 2 ^ 32)
    (hcompile : compile (cString b.sql.bytes) db.content = .statement program tail)
    (hvalid : ∃ cs, tail = Utf8.encode cs) {row : Option (List Value)}
    (hanswer : (db.machine { program }).next.outcome = .ok row) :
    ∃ db', batchBody host compile (.array []) (.ok 0) b rounds db =
        some (.ok ⟨utf8String (stripSpaces UInt8.toNat tail), row⟩, db') ∧
      db'.content = (db.machine { program }).next.content ∧
      db'.isOpen = true := by
  have hprepare := prepare_statement_short rounds hopen hencode hshort hcompile
  have hnew := Database.statement_push db (some { program })
  let stmt : Prepared := ⟨db.statements.length, tail⟩
  obtain ⟨m, hstep, hcontent⟩ := step_new stmt rounds hnew hanswer
  refine ⟨((db.push (some { program })).put stmt.id m).without stmt.id,
    prepareBlock_run rounds hprepare ?_, ?_, ?_⟩
  · rw [CallM.bind_run_ok row _ ((batchStep_run hnew _).trans hstep), strip_utf8String host hvalid]
    rfl
  · rw [Database.without_content]
    exact hcontent
  · rw [Database.without_isOpen]
    exact hopen

theorem batchBody_raise (rounds : Nat) (hopen : db.isOpen = true)
    (hencode : strEncodeUtf8 host b.sql = .ok b.sql.bytes) (hshort : b.sql.bytes.length < 2 ^ 32)
    (hcompile : compile (cString b.sql.bytes) db.content = .statement program tail)
    {e : RubyException}
    (hanswer : (db.machine { program }).next.outcome = .raise e) :
    ∃ db', batchBody host compile (.array []) (.ok 0) b rounds db = some (.raise e, db') := by
  have hprepare := prepare_statement_short rounds hopen hencode hshort hcompile
  have hnew := Database.statement_push db (some { program })
  let stmt : Prepared := ⟨db.statements.length, tail⟩
  have hstep : step stmt rounds (db.push (some { program })) = _ := step_run hnew rounds
  rw [show (Statement.step ((db.push (some { program })).machine { program })).1 = .raise e from
    Statement.step_raise rfl hanswer] at hstep
  refine ⟨((db.push (some { program })).put stmt.id
    (Statement.step (db.machine { program })).2).without stmt.id,
    prepareBlock_run rounds hprepare ?_⟩
  rw [CallM.bind_run_raise _ ((batchStep_run hnew _).trans hstep)]
  rfl

theorem batchBody_noStatement (rounds : Nat) (hopen : db.isOpen = true)
    (hencode : strEncodeUtf8 host b.sql = .ok b.sql.bytes) (hshort : b.sql.bytes.length < 2 ^ 32)
    (hcompile : compile (cString b.sql.bytes) db.content = .noStatement tail)
    (hvalid : ∃ cs, tail = Utf8.encode cs) :
    ∃ db', batchBody host compile (.array []) (.ok 0) b rounds db =
        some (.ok ⟨utf8String (stripSpaces UInt8.toNat tail), b.result⟩, db') ∧
      db'.content = db.content ∧ db'.isOpen = true := by
  have hprepare := prepare_noStatement_short rounds hopen hencode hshort hcompile
  refine ⟨(db.push none).without db.statements.length,
    prepareBlock_run rounds hprepare ?_, ?_, ?_⟩
  · have hclosed : batchStep host (.array []) (.ok 0) ⟨db.statements.length, tail⟩ b.result rounds
        (db.push none) = some (.ok b.result, db.push none) := by
      rw [batchStep, CallM.get_bind, Database.statement_push, if_pos (by simp)]
      rfl
    rw [CallM.bind_run_ok b.result _ hclosed, strip_utf8String host hvalid]
    rfl
  · rw [Database.without_content]
    rfl
  · rw [Database.without_isOpen]
    exact hopen

end Body

/-! ## The two loops side by side -/

section Loops

variable {host : Host} {compile : List UInt8 → C → Compiled C}
  {columnText : SqliteValue → Option (List UInt8)} {program : Program C}

/-- The loop of `execute_batch` is at a text that the other loop sees with whitespace
around it. -/
structure Beside (host : Host) (b : BatchState) (text : List UInt8) : Prop where
  valid : ∃ cs, cString b.sql.bytes = Utf8.encode cs
  encode : strEncodeUtf8 host b.sql = .ok b.sql.bytes
  surrounded : Surrounded (cString b.sql.bytes) text
  zero_not_mem : 0 ∉ text
  start : cString b.sql.bytes = [] → b.sql.bytes = []
  short : b.sql.bytes.length < 2 ^ 32

theorem cString_strip_eq_nil {text : List UInt8}
    (h : cString (stripSpaces UInt8.toNat text) = []) : stripSpaces UInt8.toNat text = [] := by
  cases htext : stripSpaces UInt8.toNat text with
  | nil => rfl
  | cons b rest =>
      have hspace : isSpace b.toNat = false := strip_head (l := text) (by rw [htext]; rfl)
      rw [htext, cString] at h
      have hzero : b = 0 := by
        by_contra hne
        rw [List.takeWhile_cons_of_pos (by simpa using hne)] at h
        cases h
      rw [hzero] at hspace
      cases hspace

theorem cString_length_le (text : List UInt8) : (cString text).length ≤ text.length :=
  (List.takeWhile_sublist _).length_le

theorem Beside.cString_lt {b : BatchState} {text : List UInt8} (h : Beside host b text) :
    (cString b.sql.bytes).length < 2 ^ 32 := (cString_length_le _).trans_lt h.short

/-- The loops go on behind the same statement. -/
theorem beside_tail {text tail tail' next : List UInt8} {result : Option (List Value)}
    (hvalid : ∃ cs, text = Utf8.encode cs) (hzero : 0 ∉ text) (hshort : text.length < 2 ^ 32)
    (hfollows : Follows text tail')
    (hstrip : stripSpaces UInt8.toNat tail' = stripSpaces UInt8.toNat tail)
    (hnext : stripSpaces UInt8.toNat next = stripSpaces UInt8.toNat tail) (hzero' : 0 ∉ next) :
    Beside host ⟨utf8String (stripSpaces UInt8.toNat tail'), result⟩ next := by
  have hself : cString (stripSpaces UInt8.toNat tail') = stripSpaces UInt8.toNat tail' := by
    obtain ⟨left, right, -, -, htail⟩ := surrounded_strip tail'
    refine cString_eq_self fun hmem => hfollows.zero_not_mem hzero ?_
    rw [htail]
    simp [hmem]
  have hlength : (stripSpaces UInt8.toNat tail').length ≤ text.length :=
    (strip_sublist _ tail').length_le.trans hfollows.length_le
  refine ⟨?_, rfl, ?_, hzero', cString_strip_eq_nil, hlength.trans_lt hshort⟩
  · exact valid_cString (valid_strip (hfollows.valid hvalid))
  · change Surrounded (cString (stripSpaces UInt8.toNat tail')) next
    rw [hself, hstrip, ← hnext]
    exact surrounded_strip next

/-- The first text of each loop. -/
theorem beside_start {sql : RString} (h : Plain host sql) :
    Beside host ⟨{ sql with bytes := stripSpaces UInt8.toNat sql.bytes }, none⟩
      (cString sql.bytes) := by
  refine ⟨valid_cString (valid_strip h.valid), h.encode, ?_, zero_not_mem_cString _,
    cString_strip_eq_nil, h.short⟩
  obtain ⟨left, right, hleft, hright, hrest⟩ :=
    surrounded_strip (sql.bytes.dropWhile isSqliteSpace)
  rw [strip_dropWhile] at hrest
  -- What follows the spaces begins neither with a space nor with a NUL.
  obtain rfl : left = [] := by
    cases left with
    | nil => rfl
    | cons b left =>
        have hhead : (sql.bytes.dropWhile isSqliteSpace).head? = some b := by rw [hrest]; rfl
        have hnot := List.head?_dropWhile_not isSqliteSpace sql.bytes
        have hplain := h.head
        rw [hhead] at hnot hplain
        have hspace : isSpace b.toNat = true := hleft b (by simp)
        simp only [isSqliteSpace, hspace, Bool.and_true] at hnot
        exact absurd (congrArg some (by simpa using hnot)) hplain
  obtain ⟨right', hright', hcut⟩ :=
    cString_append_spaces (stripSpaces UInt8.toNat sql.bytes) hright
  have hzero : 0 ∉ sql.bytes.takeWhile isSqliteSpace := fun hmem => by
    simpa [isSqliteSpace] using List.mem_takeWhile_imp hmem
  refine ⟨sql.bytes.takeWhile isSqliteSpace, right', ?_, hright', ?_⟩
  · exact fun b hb => isSpace_of_isSqliteSpace (List.mem_takeWhile_imp hb)
  · calc cString sql.bytes
        = cString (sql.bytes.takeWhile isSqliteSpace ++ sql.bytes.dropWhile isSqliteSpace) := by
          rw [List.takeWhile_append_dropWhile]
      _ = sql.bytes.takeWhile isSqliteSpace ++
            cString (stripSpaces UInt8.toNat sql.bytes ++ right) := by
          rw [cString_append hzero, hrest, List.nil_append]
      _ = _ := by rw [hcut, List.append_assoc]

theorem execSteps_ok {callback : List SqliteValue → Row} {rounds : Nat} {m m' : Machine C}
    {rows rows' : List Row} (h : execSteps callback rounds m rows = some (.ok rows', m')) :
    m.next.pending = none → ∃ row, m.next.outcome = .ok row := by
  intro hpending
  cases hnext : m.next with
  | row pending values content =>
      rw [hnext] at hpending
      obtain rfl : pending = none := hpending
      exact ⟨_, rfl⟩
  | done pending content =>
      rw [hnext] at hpending
      obtain rfl : pending = none := hpending
      exact ⟨_, rfl⟩
  | error pending status errmsg content =>
      obtain ⟨e, he, -⟩ := check_errorStatus status errmsg
      have hraise : execSteps callback rounds m rows = some (.raise e, m.stepped) := by
        unfold execSteps
        rw [hnext]
        simp [he]
      rw [hraise] at h
      cases h

/-- What `sqlite3_exec` does in a round that returns. -/
theorem execBody_cases {callback : List String → List SqliteValue → Row} {e e' : ExecState}
    {rounds : Nat} {db db' : Database C}
    (h : execBody compile callback e rounds db = some (.ok e', db')) :
    (∃ tail, compile e.text db.content = .noStatement tail ∧ e'.text = tail ∧
      db'.content = db.content) ∨
    ∃ program tail, compile e.text db.content = .statement program tail ∧
      e'.text = tail.dropWhile isSqliteSpace ∧
      ((db.machine { program }).next.pending = none →
        ∃ row, (db.machine { program }).next.outcome = .ok row) := by
  rw [execBody, CallM.get_bind] at h
  cases hcompile : compile e.text db.content with
  | error status errmsg =>
      obtain ⟨ex, hex, -⟩ := check_errorStatus status errmsg
      rw [hcompile] at h
      simp [hex] at h
  | noStatement tail =>
      rw [hcompile] at h
      obtain ⟨he, rfl⟩ := Prod.mk.inj (Option.some.inj h)
      exact Or.inl ⟨tail, rfl, (congrArg ExecState.text (Outcome.ok.inj he)).symm, rfl⟩
  | statement program tail =>
      rw [hcompile] at h
      obtain ⟨rows, db₁, hrows, hlast⟩ := CallM.bind_eq_ok h
      obtain ⟨he, -⟩ := Prod.mk.inj (Option.some.inj hlast)
      refine Or.inr ⟨program, tail, rfl, (congrArg ExecState.text (Outcome.ok.inj he)).symm, ?_⟩
      obtain ⟨⟨o, m⟩, hr, hpair⟩ := Option.map_eq_some_iff.mp hrows
      obtain rfl : o = .ok rows := congrArg Prod.fst hpair
      exact execSteps_ok hr

/-- The loops after so many rounds. -/
def SideBySide (host : Host) (compile : List UInt8 → C → Compiled C)
    (columnText : SqliteValue → Option (List UInt8)) (sql : RString) (rounds : Nat)
    (db : Database C) (k : Nat) : Prop :=
  ∃ b db₁ e db₂, batchUpTo host compile sql k rounds db = some (.ok b, db₁) ∧
    execUpTo compile columnText sql k rounds db = some (.ok e, db₂) ∧ Beside host b e.text ∧
      db₁.isOpen = true ∧ db₁.content = db₂.content

variable {sql : RString} {rounds : Nat} {db : Database C}

theorem batchUpTo_run (compile : List UInt8 → C → Compiled C) (h : Plain host sql) (rounds : Nat)
    (db : Database C) (k : Nat) :
    batchUpTo host compile sql k rounds db =
      CallM.firstRounds BatchState.isFinished (batchBody host compile (.array []) (.ok 0)) k
        ⟨{ sql with bytes := stripSpaces UInt8.toNat sql.bytes }, none⟩ rounds db := by
  rw [batchUpTo, h.strip, CallM.lift_ok_bind]

theorem sideBySide_zero (h : Plain host sql) (hopen : db.isOpen = true) :
    SideBySide host compile columnText sql rounds db 0 :=
  ⟨_, db, _, db, batchUpTo_run compile h rounds db 0, rfl, beside_start h, hopen, rfl⟩

theorem Surrounded.eq_nil {text : List UInt8} (h : Surrounded text []) : text = [] := by
  obtain ⟨left, right, -, -, htext⟩ := h
  simp_all

/-- Nothing comes behind a semicolon in a text of spaces. -/
theorem Surrounded.tail_eq_nil {text tail : List UInt8} (h : Surrounded [] text)
    (hfollows : Follows text tail) : tail = [] := by
  obtain ⟨left, right, hleft, hright, rfl⟩ := h
  refine hfollows.resolve_right ?_
  rintro ⟨init, hinit⟩
  have hmem : (59 : UInt8) ∈ left ++ [] ++ right := hinit ▸ by simp
  rw [List.append_nil, List.mem_append] at hmem
  rcases hmem with hmem | hmem
  · exact absurd (hleft 59 hmem) (by decide)
  · exact absurd (hright 59 hmem) (by decide)

/-- A text that compiles is not all used up. -/
theorem isFinished_of_compiles (hcuts : CutsTexts compile) {b : BatchState} {content : C}
    {program : Program C} {tail : List UInt8}
    (hcompile : compile (cString b.sql.bytes) content = .statement program tail) :
    b.isFinished = false := by
  rw [BatchState.isFinished, List.isEmpty_eq_false_iff]
  intro hnil
  rw [hnil] at hcompile
  exact hcuts.blank _ _ _ hcompile

/-- What a new statement does first depends on the content alone. -/
theorem next_of_content {db db' : Database C} (h : db.content = db'.content)
    (program : Program C) : (db.machine { program }).next = (db'.machine { program }).next := by
  rw [Machine.next, Machine.next, Machine.view, Machine.view, Database.machine, Database.machine, h]

/-- A round of `execute_batch`, if there is one to come. -/
def batchRound (host : Host) (compile : List UInt8 → C → Compiled C) (b : BatchState) :
    QueryM C BatchState :=
  if b.isFinished then pure b else batchBody host compile (.array []) (.ok 0) b

/-- Where SQLite finds no statement in one text, it finds none in the other. -/
theorem beside_noStatement (hcuts : CutsTexts compile) {b : BatchState} {text tail : List UInt8}
    (h : Beside host b text) (rounds : Nat) (hopen : db.isOpen = true)
    (hcompile : compile text db.content = .noStatement tail) :
    ∃ b' db', batchRound host compile b rounds db = some (.ok b', db') ∧ Beside host b' tail ∧
      db'.isOpen = true ∧ db'.content = db.content := by
  have hbehind := hcuts.noStatement_follows _ _ _ h.zero_not_mem hcompile
  rw [batchRound]
  cases hb : b.isFinished with
  | true =>
      have hnil : cString b.sql.bytes = [] := by
        rw [List.isEmpty_iff.mp hb]
        rfl
      have hsurrounded : Surrounded [] text := hnil ▸ h.surrounded
      obtain rfl : tail = [] := hsurrounded.tail_eq_nil hbehind
      rw [if_pos rfl]
      refine ⟨b, db, rfl, ⟨h.valid, h.encode, ?_, List.not_mem_nil, h.start, h.short⟩, hopen, rfl⟩
      rw [hnil]
      exact ⟨[], [], by simp, by simp, rfl⟩
  | false =>
      obtain ⟨tail', hcompile', hstrip⟩ :=
        hcuts.noStatement_surrounded _ _ _ _ h.surrounded h.zero_not_mem hcompile
      have hfollows := hcuts.noStatement_follows _ _ _ (zero_not_mem_cString _) hcompile'
      obtain ⟨db', hbody, hcontent, hopen'⟩ := batchBody_noStatement rounds
        hopen h.encode h.short hcompile' (hfollows.valid h.valid)
      rw [if_neg Bool.false_ne_true]
      refine ⟨_, db', hbody, ?_, hopen', hcontent⟩
      exact beside_tail h.valid (zero_not_mem_cString _) h.cString_lt hfollows hstrip rfl
        (hbehind.zero_not_mem h.zero_not_mem)

/-- Where it finds a statement in one text, it finds the same in the other. -/
theorem beside_statement (hcuts : CutsTexts compile) {b : BatchState} {text tail : List UInt8}
    {program : Program C} {row : Option (List Value)} (h : Beside host b text) (rounds : Nat)
    (hopen : db.isOpen = true) (hcompile : compile text db.content = .statement program tail)
    (hend : tail = [] → ∀ init right, text = init ++ right →
      (∀ b ∈ right, isSpace b.toNat = true) → compile init db.content = .statement program [])
    (hrow : (db.machine { program }).next.outcome = .ok row) :
    ∃ b' db', batchRound host compile b rounds db = some (.ok b', db') ∧
      Beside host b' (tail.dropWhile isSqliteSpace) ∧ db'.isOpen = true ∧
        db'.content = (db.machine { program }).next.content := by
  obtain ⟨tail', hcompile', hstrip⟩ :=
    hcuts.statement_surrounded h.surrounded h.zero_not_mem hcompile hend
  have hfollows := hcuts.statement_follows _ _ _ _ (zero_not_mem_cString _) hcompile'
  have hbehind := hcuts.statement_follows _ _ _ _ h.zero_not_mem hcompile
  have hzero : 0 ∉ tail.dropWhile isSqliteSpace := fun hmem =>
    hbehind.zero_not_mem h.zero_not_mem ((List.dropWhile_sublist _).subset hmem)
  obtain ⟨db', hbody, hcontent, hopen'⟩ := batchBody_statement rounds
    hopen h.encode h.short hcompile' (hfollows.valid h.valid) hrow
  rw [batchRound, isFinished_of_compiles hcuts hcompile', if_neg Bool.false_ne_true]
  refine ⟨_, db', hbody, ?_, hopen', hcontent⟩
  exact beside_tail h.valid (zero_not_mem_cString _) h.cString_lt hfollows hstrip
    (strip_dropWhile tail) hzero

/-- The two loops stay side by side in a round in which the statement has done all its work
after one step. -/
theorem sideBySide_succ (hcuts : CutsTexts compile) (hplain : Plain host sql)
    (hends : IgnoresEndSpace compile columnText sql rounds db) {k : Nat}
    (h : SideBySide host compile columnText sql rounds db k) {e' : ExecState} {db₂' : Database C}
    (hexec : execUpTo compile columnText sql (k + 1) rounds db = some (.ok e', db₂'))
    (hworks : ∀ e db₂ program tail,
      execUpTo compile columnText sql k rounds db = some (.ok e, db₂) → e.text ≠ [] →
        compile e.text db₂.content = .statement program tail →
          (db₂.machine { program }).next.pending = none ∧
            db₂'.content = (db₂.machine { program }).next.content) :
    SideBySide host compile columnText sql rounds db (k + 1) := by
  obtain ⟨b, db₁, e, db₂, hbatch, hupTo, hbeside, hopen, hcontent⟩ := h
  have hbatch' := batchUpTo_run compile hplain rounds db (k + 1)
  rw [CallM.firstRounds_succ_run
    ((batchUpTo_run compile hplain rounds db k).symm.trans hbatch)] at hbatch'
  change _ = batchRound host compile b rounds db₁ at hbatch'
  have hround : (if e.isFinished then pure e
      else execBody compile (batchRow columnText db.resultsAsHash) e : QueryM C ExecState)
        rounds db₂ = some (.ok e', db₂') := (CallM.firstRounds_succ_run hupTo).symm.trans hexec
  cases htext : e.text with
  | nil =>
      rw [ExecState.isFinished, htext, if_pos (by rfl)] at hround
      obtain ⟨he, rfl⟩ := Prod.mk.inj (Option.some.inj hround)
      obtain rfl := Outcome.ok.inj he
      have hstart := hbeside.start (htext ▸ hbeside.surrounded).eq_nil
      rw [batchRound, BatchState.isFinished, hstart, if_pos (by rfl)] at hbatch'
      exact ⟨b, db₁, e, db₂, hbatch', hexec, hbeside, hopen, hcontent⟩
  | cons c rest =>
      have hne : e.text ≠ [] := by simp [htext]
      rw [ExecState.isFinished, htext, if_neg (by simp)] at hround
      rcases execBody_cases hround with
        ⟨tail, hcompile, htail, hsame⟩ | ⟨program, tail, hcompile, htail, hok⟩
      · obtain ⟨b', db₁', hrun, hbeside', hopen', hcontent'⟩ :=
          beside_noStatement hcuts hbeside rounds hopen (hcontent ▸ hcompile)
        refine ⟨b', db₁', e', db₂', hbatch'.trans hrun, hexec, htail ▸ hbeside', hopen', ?_⟩
        rw [hcontent', hsame, hcontent]
      · obtain ⟨hpending, hdone⟩ := hworks e db₂ program tail hupTo hne hcompile
        obtain ⟨row, hrow⟩ := hok hpending
        have hnext := next_of_content hcontent program
        obtain ⟨b', db₁', hrun, hbeside', hopen', hcontent'⟩ :=
          beside_statement hcuts hbeside rounds hopen (hcontent ▸ hcompile)
            (fun hnil => hcontent ▸ hends k e db₂ program hupTo (hnil ▸ hcompile)) (hnext ▸ hrow)
        refine ⟨b', db₁', e', db₂', hbatch'.trans hrun, hexec, htail ▸ hbeside', hopen', ?_⟩
        rw [hcontent', hdone, hnext]

theorem pending_eq_none_of_ok {answer : Answer C} {row : Option (List Value)}
    (h : answer.outcome = .ok row) : answer.pending = none := by
  cases row with
  | none =>
      obtain ⟨content, rfl⟩ := Answer.outcome_eq_none h
      rfl
  | some row =>
      obtain ⟨values, content, rfl, -⟩ := Answer.outcome_eq_row h
      rfl

/-- A round after which the contents are the same is one in which the statement has done all
its work after one step. -/
theorem works_of_sameContent (hcuts : CutsTexts compile) (hplain : Plain host sql)
    (hends : IgnoresEndSpace compile columnText sql rounds db) {k : Nat}
    (h : SideBySide host compile columnText sql rounds db k)
    (hsame : SameContent (batchUpTo host compile sql (k + 1))
      (execUpTo compile columnText sql (k + 1)) rounds db)
    {e : ExecState} {db₂ : Database C} {program : Program C} {tail : List UInt8}
    (hupTo : execUpTo compile columnText sql k rounds db = some (.ok e, db₂))
    (hcompile : compile e.text db₂.content = .statement program tail) :
    (db₂.machine { program }).next.pending = none ∧
      ∀ e' db₂', execUpTo compile columnText sql (k + 1) rounds db = some (.ok e', db₂') →
        db₂'.content = (db₂.machine { program }).next.content := by
  obtain ⟨b, db₁, e₁, db₂₁, hbatch, hupTo₁, hbeside, hopen, hcontent⟩ := h
  obtain ⟨he, rfl⟩ := Prod.mk.inj (Option.some.inj (hupTo₁.symm.trans hupTo))
  obtain rfl := Outcome.ok.inj he
  obtain ⟨b', db₁', e', db₂', hbatch', hupTo', hcontent'⟩ := hsame
  rw [batchUpTo_run compile hplain, CallM.firstRounds_succ_run
    ((batchUpTo_run compile hplain rounds db k).symm.trans hbatch)] at hbatch'
  obtain ⟨tail', hcompile', -⟩ :=
    hcuts.statement_surrounded hbeside.surrounded hbeside.zero_not_mem hcompile
      fun hnil => hends _ _ _ program hupTo₁ (hnil ▸ hcompile)
  have hfollows := hcuts.statement_follows _ _ _ _ (zero_not_mem_cString _) hcompile'
  have hb := isFinished_of_compiles hcuts hcompile'
  have hnext := next_of_content hcontent program
  rw [hb, if_neg Bool.false_ne_true] at hbatch'
  cases houtcome : (db₁.machine { program }).next.outcome with
  | ok row =>
      obtain ⟨db₁'', hbody, hlast, -⟩ := batchBody_statement rounds hopen hbeside.encode
        hbeside.short (hcontent ▸ hcompile') (hfollows.valid hbeside.valid) houtcome
      rw [hbody] at hbatch'
      obtain ⟨-, rfl⟩ := Prod.mk.inj (Option.some.inj hbatch')
      refine ⟨pending_eq_none_of_ok (hnext ▸ houtcome), fun e'' db₂'' hupTo'' => ?_⟩
      obtain ⟨-, rfl⟩ := Prod.mk.inj (Option.some.inj (hupTo'.symm.trans hupTo''))
      rw [← hcontent', hlast, hnext]
  | raise ex =>
      obtain ⟨db₁'', hbody⟩ := batchBody_raise rounds hopen hbeside.encode
        hbeside.short (hcontent ▸ hcompile') houtcome
      rw [hbody] at hbatch'
      cases hbatch'
  | jump tag => exact absurd houtcome (Answer.outcome_ne_jump _ tag)

section Scripts

variable {sql : RString} {rounds : Nat} {db db' : Database C} {rows : List Row}

/-- The loop of a script that `execute_batch2` runs, with the database it begins with. -/
theorem exec_loop (hsucceeds : executeBatch2 compile columnText sql rounds db = some (.ok rows, db')) :
    db.isOpen = true ∧ ∃ last, last.rows = rows ∧ last.isFinished = true ∧
      execUpTo compile columnText sql rounds rounds db = some (.ok last, db') := by
  have hopen : db.isOpen = true := by
    by_contra hclosed
    rw [executeBatch2, CallM.get_bind, if_neg hclosed] at hsucceeds
    cases hsucceeds
  rw [executeBatch2, CallM.get_bind, if_pos hopen] at hsucceeds
  obtain ⟨last, db₁, hloop, hreturn⟩ := CallM.bind_eq_ok hsucceeds
  obtain ⟨hlast, hfinished⟩ := CallM.loopUntil_eq_ok_iff.mp hloop
  obtain ⟨hrows, rfl⟩ := Prod.mk.inj (Option.some.inj hreturn)
  exact ⟨hopen, last, Outcome.ok.inj hrows, hfinished, hlast⟩

/-- The loops that stay side by side all along have the same effect. -/
theorem sameEffect_of_sideBySide (hplain : Plain host sql)
    (hsucceeds : executeBatch2 compile columnText sql rounds db = some (.ok rows, db'))
    (hside : ∀ k, SideBySide host compile columnText sql rounds db k) :
    SameEffect host compile columnText sql rounds db := by
  obtain ⟨-, last, -, hfinished, hlast⟩ := exec_loop hsucceeds
  constructor
  · obtain ⟨b, db₁', e, db₂, hbatch, hexec, hbeside, -, hcontent⟩ := hside rounds
    obtain ⟨he, rfl⟩ := Prod.mk.inj (Option.some.inj (hlast.symm.trans hexec))
    obtain rfl := Outcome.ok.inj he
    have hnil : last.text = [] := List.isEmpty_iff.mp hfinished
    have hstart := hbeside.start (hnil ▸ hbeside.surrounded).eq_nil
    have hrun : executeBatch host compile sql (.array []) (.ok 0) rounds db =
        some (.ok b.result, db₁') := by
      rw [executeBatch, hplain.strip, CallM.lift_ok_bind]
      refine CallM.bind_run_ok b _ (CallM.loopUntil_eq_ok_iff.mpr ⟨?_, ?_⟩)
      · exact (batchUpTo_run compile hplain rounds db rounds).symm.trans hbatch
      · rw [BatchState.isFinished, hstart]
        rfl
    exact ⟨b.result, db₁', rows, db', hrun, hsucceeds, hcontent⟩
  · intro k
    obtain ⟨b, db₁', e, db₂, hbatch, hexec, -, -, hcontent⟩ := hside k
    exact ⟨b, db₁', e, db₂, hbatch, hexec, hcontent⟩

end Scripts

end Loops

theorem plain_utf8 (host : Host) (cs : List Char) {known : List UInt8}
    (hcs : Utf8.encode cs = known) (hhead : (known.dropWhile isSqliteSpace).head? ≠ some 0)
    (hshort : known.length < 2 ^ 32) : Plain host (utf8String known) :=
  ⟨⟨cs, hcs.symm⟩, strip_utf8String host ⟨cs, hcs.symm⟩, rfl, hhead,
    (strip_sublist _ known).length_le.trans_lt hshort⟩

/-- The letter that stands for the one statement. -/
def knownText : List UInt8 := [105]

/-- `select touch(x) from t`, where `t` has two rows and `touch` counts its calls in the
content. -/
def touchProgram : Program Nat where
  columns := ["touch(x)"]
  parameterCount := 0
  parameterIndex _ := 0
  answer earlier now :=
    if earlier.length < 2 then .row none [.integer (Int64.ofNat now.content)] (now.content + 1)
    else .done none now.content
  rowless h := by cases h

end Sqlite3Ruby.Query
