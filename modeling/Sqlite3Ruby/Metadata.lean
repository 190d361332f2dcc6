import Sqlite3Ruby.QueryRows

/-!
# The cached names of the columns

`Statement` keeps what `columns` and `types` have once read. SQLite compiles the text
again when the schema has changed, with the first step of an execution, and the names of
the columns may be others then.

## Implementation notes

The content of the database holds its schema, so that it says which program the text
compiles to. The content is changed between executions only.
-/

namespace Sqlite3Ruby.Metadata

/-- A program as SQLite makes it: a row has a value for each column. -/
abbrev WideProgram (C : Type) :=
  {program : Program C // ∀ {earlier now pending values content},
    program.answer earlier now = .row pending values content →
      values.length = program.columns.length}

/-- What SQLite makes of the text of the statement for a schema. -/
abbrev Recompile (C : Type) := C → Except (ErrorStatus × String) (WideProgram C)

/-- A statement, with `@columns` and `@types`. -/
structure State (C : Type) where
  machine : Machine C
  columns : Option (List String)
  types : Option (List (Option String))

abbrev MetadataM (C : Type) := RubyM (State C)

variable {C : Type} {α : Type}

namespace State

/-- The names of the current result columns. -/
def names (s : State C) : List String := s.machine.statement.program.columns

def setMachine (s : State C) (m : Machine C) : State C := { s with machine := m }

def setProgram (s : State C) (program : Program C) : State C :=
  { s with
    machine := { s.machine with statement := { s.machine.statement with program := program } } }

end State

/-- A method that has nothing to do with the names. -/
def onMachine (method : StatementM C α) : MetadataM C α := fun s =>
  ((method s.machine).1, s.setMachine (method s.machine).2)

section Methods

variable (host : Host) (recompile : Recompile C)
  (columnDecltype : Program C → List (Option String))

/-- `step`. The first `sqlite3_step` of an execution compiles the text again if it has to. -/
def step : MetadataM C (Option (List Value)) := do
  let s ← RubyM.get
  if s.machine.statement.doneP || s.machine.statement.vm.isActive then onMachine Statement.step
  else
    match recompile s.machine.content with
    | .ok program => do
        RubyM.modify (·.setProgram program.1)
        onMachine Statement.step
    | .error (status, errmsg) => do
        RubyM.modify fun s => s.setMachine (s.machine.reset.setDoneP false)
        RubyM.lift (check status.1 errmsg)
        pure none

/-- `get_metadata`. -/
def getMetadata : MetadataM C Unit :=
  RubyM.modify fun s =>
    { s with
      columns := some s.names
      types := some ((columnDecltype s.machine.statement.program).map
        (·.map (·.map Char.toLower))) }

/-- `columns`. -/
def columns : MetadataM C (List String) := do
  let s ← RubyM.get
  if s.columns.isNone then getMetadata columnDecltype else pure ()
  let s ← RubyM.get
  pure (s.columns.getD [])

/-- `types`. -/
def types : MetadataM C (List (Option String)) := do
  let s ← RubyM.get
  if s.types.isNone then getMetadata columnDecltype else pure ()
  let s ← RubyM.get
  pure (s.types.getD [])

/-- `next_hash`. -/
def nextHash : MetadataM C (Option (List (String × Value))) := do
  let row ← step recompile
  let s ← RubyM.get
  if s.machine.statement.doneP then pure none
  else do
    let columns ← columns columnDecltype
    match row with
    | some row => pure (some (Query.zipToH columns row))
    | none =>
        RubyM.lift (.raise ⟨.TypeError, "wrong argument type nil (must respond to :each)"⟩)

/-- `execute`, up to the step of a statement without columns. -/
def beforeStep (vars : List BindVar) : MetadataM C Unit := do
  let s ← RubyM.get
  if s.machine.statement.isActive || s.machine.statement.doneP then onMachine Statement.resetBang
  else pure ()
  if vars.isEmpty then pure () else onMachine (Statement.bindParams host vars)

/-- `execute`. -/
def execute (vars : List BindVar) : MetadataM C Unit := do
  beforeStep host vars
  let s ← RubyM.get
  if s.names.isEmpty then do
    let _ ← step recompile
    pure ()
  else pure ()

end Methods

/-! ## Runs -/

/-- What is done with the statement, or to the database. -/
inductive Action (C : Type)
  | step
  | nextHash
  | columns
  | types
  | bindParams (vars : List BindVar)
  | resetBang
  | clearBindingsBang
  | execute (vars : List BindVar)
  | change (content : C)

section Runs

variable (host : Host) (recompile : Recompile C)
  (columnDecltype : Program C → List (Option String))

/-- A call leaves its state behind, returning or raising. -/
def act (s : State C) : Action C → Option (State C)
  | .step => some (step recompile s).2
  | .nextHash => some (nextHash recompile columnDecltype s).2
  | .columns => some (columns columnDecltype s).2
  | .types => some (types columnDecltype s).2
  | .bindParams vars => some (onMachine (Statement.bindParams host vars) s).2
  | .resetBang => some (onMachine Statement.resetBang s).2
  | .clearBindingsBang => some (onMachine Statement.clearBindingsBang s).2
  | .execute vars => some (execute host recompile vars s).2
  | .change content =>
      if s.machine.statement.vm.isActive then none
      else some (s.setMachine { s.machine with content := content })

/-- A statement that has been prepared. -/
def prepared (program : WideProgram C) (content : C) : State C :=
  ⟨Statement.prepared program.1 content, none, none⟩

/-- The hash has the value of each column of the row under the name of that column, and
nothing else. -/
structure Aligned (names : List String) (row : List Value) (hash : List (String × Value)) :
    Prop where
  names : hash.map (·.1) = names
  values : hash.map (·.2) = row

/-- The hash that a call hands out is aligned with the row that `step` returns there. -/
def HashAligned (s : State C) : Action C → Prop
  | .nextHash => ∀ hash t, nextHash recompile columnDecltype s = (.ok (some hash), t) →
      t.names.Nodup → ∃ row u, step recompile s = (.ok (some row), u) ∧ Aligned t.names row hash
  | _ => True

/-- Where a step compiles the text to other names, none are cached. -/
def NamesStand (s : State C) : Prop :=
  s.machine.statement.doneP = false → s.machine.statement.vm.isActive = false →
    ∀ program, recompile s.machine.content = .ok program →
      s.columns = none ∨ program.1.columns = s.names

/-- The condition on a call. -/
def Meets (s : State C) : Action C → Prop
  | .step | .nextHash => NamesStand recompile s
  | .execute vars => s.names = [] → ∀ t, beforeStep host vars s = (.ok (), t) →
      NamesStand recompile t
  | _ => True

/-- The names that are cached are those of the columns, which are as many as the values of
a row. -/
structure Inv (s : State C) : Prop where
  wide : ∀ {earlier now pending values content},
    s.machine.statement.program.answer earlier now = .row pending values content →
      values.length = s.names.length
  cached : ∀ names, s.columns = some names → names = s.names

end Runs

/-! ## The invariant -/

section Invariant

variable {host : Host} {recompile : Recompile C}
  {columnDecltype : Program C → List (Option String)} {s : State C}

theorem Inv.of_same {t : State C} (h : Inv s)
    (hprogram : t.machine.statement.program = s.machine.statement.program)
    (hcolumns : t.columns = s.columns) : Inv t := by
  obtain ⟨hwide, hcached⟩ := h
  have hnames : t.names = s.names := congrArg Program.columns hprogram
  constructor
  · intro earlier now pending values content hanswer
    rw [hprogram] at hanswer
    rw [hnames]
    exact hwide hanswer
  · intro names hnames'
    rw [hnames]
    exact hcached names (hcolumns ▸ hnames')

theorem inv_prepared (program : WideProgram C) (content : C) : Inv (prepared program content) :=
  ⟨program.2, by simp [prepared]⟩

theorem inv_onMachine (h : Inv s) {method : StatementM C α}
    (hprogram : (method s.machine).2.statement.program = s.machine.statement.program) :
    Inv (onMachine method s).2 := h.of_same hprogram rfl

theorem bindParams_program (vars : List BindVar) (m : Machine C) :
    (Statement.bindParams host vars m).2.statement.program = m.statement.program := by
  obtain ⟨bindings, hsame⟩ := Statement.bindEach_same host 1 (flattenAll vars) m
  rw [Statement.bindParams, hsame]
  rfl

theorem inv_setProgram (h : Inv s) {program : WideProgram C}
    (hstand : s.columns = none ∨ program.1.columns = s.names) : Inv (s.setProgram program.1) := by
  constructor
  · exact program.2
  · intro names hnames
    have hcolumns : s.columns = some names := hnames
    rcases hstand with hnone | hsame
    · rw [hnone] at hcolumns
      cases hcolumns
    · exact (h.cached names hcolumns).trans hsame.symm

theorem inv_step (h : Inv s) (hstand : NamesStand recompile s) : Inv (step recompile s).2 := by
  rw [step, RubyM.get_bind]
  split
  · exact inv_onMachine h (Statement.step_program _)
  · rename_i hfirst
    rw [Bool.or_eq_true, not_or, Bool.not_eq_true, Bool.not_eq_true] at hfirst
    cases hrecompile : recompile s.machine.content with
    | ok program =>
        have hinv := inv_setProgram h (hstand hfirst.1 hfirst.2 program hrecompile)
        exact inv_onMachine hinv (Statement.step_program _)
    | error failure =>
        refine RubyM.final_lift ?_ fun _ => ?_
        · exact h.of_same rfl rfl
        · exact h.of_same rfl rfl

theorem inv_getMetadata (h : Inv s) : Inv (getMetadata columnDecltype s).2 :=
  ⟨h.wide, fun _ hnames => (Option.some.inj hnames).symm⟩

theorem inv_columns (h : Inv s) : Inv (columns columnDecltype s).2 := by
  rw [columns, RubyM.get_bind]
  split
  · exact RubyM.final_bind (P := Inv) (inv_getMetadata h) fun _ _ ht => ht
  · exact h

theorem inv_types (h : Inv s) : Inv (types columnDecltype s).2 := by
  rw [types, RubyM.get_bind]
  split
  · exact RubyM.final_bind (P := Inv) (inv_getMetadata h) fun _ _ ht => ht
  · exact h

theorem inv_nextHash (h : Inv s) (hstand : NamesStand recompile s) :
    Inv (nextHash recompile columnDecltype s).2 := by
  refine RubyM.final_bind (inv_step h hstand) fun row t ht => ?_
  rw [RubyM.get_bind]
  split
  · exact ht
  · refine RubyM.final_bind (inv_columns ht) fun columns u hu => ?_
    cases row with
    | none => exact hu
    | some row => exact hu

/-- Up to its step `execute` leaves the program and the cache alone. -/
theorem beforeStep_same (host : Host) (s : State C) (vars : List BindVar) :
    (beforeStep host vars s).2.machine.statement.program = s.machine.statement.program ∧
      (beforeStep host vars s).2.columns = s.columns := by
  let P (t : State C) : Prop :=
    t.machine.statement.program = s.machine.statement.program ∧ t.columns = s.columns
  have hbind (t : State C) (ht : P t) : P ((if vars.isEmpty then pure ()
      else onMachine (Statement.bindParams host vars) : MetadataM C Unit) t).2 := by
    split
    · exact ht
    · exact ⟨(bindParams_program vars t.machine).trans ht.1, ht.2⟩
  rw [beforeStep, RubyM.get_bind]
  split
  · exact RubyM.final_bind (P := P) ⟨rfl, rfl⟩ fun _ => hbind
  · exact hbind s ⟨rfl, rfl⟩

theorem inv_execute (h : Inv s) (vars : List BindVar)
    (hstand : s.names = [] → ∀ t, beforeStep host vars s = (.ok (), t) → NamesStand recompile t) :
    Inv (execute host recompile vars s).2 := by
  obtain ⟨hprogram, hcolumns⟩ := beforeStep_same host s vars
  rcases hbefore : beforeStep host vars s with ⟨o, t⟩
  rw [hbefore] at hprogram hcolumns
  have ht : Inv t := h.of_same hprogram hcolumns
  have hnames : t.names = s.names := congrArg Program.columns hprogram
  cases o with
  | raise e =>
      rw [execute, RubyM.bind_run_raise _ hbefore]
      exact ht
  | jump tag =>
      rw [execute, RubyM.bind_run_jump _ hbefore]
      exact ht
  | ok u =>
      rw [execute, RubyM.bind_run_ok u _ hbefore, RubyM.get_bind]
      split
      · rename_i hempty
        rw [RubyM.bind_pure_snd]
        rw [List.isEmpty_iff, hnames] at hempty
        exact inv_step ht (hstand hempty t hbefore)
      · exact ht

/-- A call that meets the condition keeps the invariant. -/
theorem inv_act {t : State C} {action : Action C} (h : Inv s)
    (hmeets : Meets host recompile s action)
    (hact : act host recompile columnDecltype s action = some t) : Inv t := by
  cases action with
  | step =>
      obtain rfl := Option.some.inj hact
      exact inv_step h hmeets
  | nextHash =>
      obtain rfl := Option.some.inj hact
      exact inv_nextHash h hmeets
  | columns =>
      obtain rfl := Option.some.inj hact
      exact inv_columns h
  | types =>
      obtain rfl := Option.some.inj hact
      exact inv_types h
  | bindParams vars =>
      obtain rfl := Option.some.inj hact
      exact inv_onMachine h (bindParams_program vars _)
  | resetBang =>
      obtain rfl := Option.some.inj hact
      exact inv_onMachine h rfl
  | clearBindingsBang =>
      obtain rfl := Option.some.inj hact
      exact inv_onMachine h rfl
  | execute vars =>
      obtain rfl := Option.some.inj hact
      exact inv_execute h vars hmeets
  | change content =>
      rw [act, Option.ite_none_left_eq_some] at hact
      obtain ⟨-, hact⟩ := hact
      obtain rfl := Option.some.inj hact
      exact h.of_same rfl rfl

end Invariant

/-! ## The hashes -/

theorem hashAset_new {hash : List (String × Value)} {key : String} (h : key ∉ hash.map (·.1))
    (value : Value) : hashAset hash key value = hash ++ [(key, value)] := by
  rw [hashAset, if_neg]
  simpa using h

theorem foldl_hashAset (entries : List (String × Value)) {hash : List (String × Value)}
    (h : ((hash ++ entries).map (·.1)).Nodup) :
    entries.foldl (fun hash entry => hashAset hash entry.1 entry.2) hash = hash ++ entries := by
  induction entries generalizing hash with
  | nil => simp
  | cons entry entries ih =>
      have hnew : entry.1 ∉ hash.map (·.1) := by
        rw [List.map_append, List.nodup_append] at h
        intro hmem
        exact h.2.2 _ hmem _ (by simp) rfl
      rw [List.append_cons] at h
      rw [List.foldl_cons, hashAset_new hnew, ih h, List.append_assoc, List.singleton_append]

/-- Different names and as many values make a hash with an entry for each. -/
theorem zipToH_aligned {names : List String} {row : List Value} (hnodup : names.Nodup)
    (hlength : row.length = names.length) : Aligned names row (Query.zipToH names row) := by
  have hzip : names.zip (row ++ List.replicate names.length .nil) = names.zip row := by
    have happend : (names ++ []).zip (row ++ List.replicate names.length Value.nil) =
        names.zip row ++ [].zip (List.replicate names.length Value.nil) :=
      List.zip_append hlength.symm
    rwa [List.append_nil, List.zip_nil_left, List.append_nil] at happend
  have hfst : (names.zip row).map (·.1) = names := List.map_fst_zip hlength.ge
  have hsnd : (names.zip row).map (·.2) = row := List.map_snd_zip hlength.le
  have hash : Query.zipToH names row = names.zip row := by
    rw [Query.zipToH, hzip, foldl_hashAset _ (by rwa [List.nil_append, hfst]), List.nil_append]
  rw [hash]
  exact ⟨hfst, hsnd⟩

section Hashes

variable {host : Host} {recompile : Recompile C}
  {columnDecltype : Program C → List (Option String)} {s : State C}

/-- A row has a value for each column of the program that has made it. -/
theorem onMachine_row_length (h : Inv s) {row : List Value} {t : State C}
    (hstep : onMachine Statement.step s = (.ok (some row), t)) : row.length = t.names.length := by
  obtain ⟨hrow, rfl⟩ := Prod.mk.inj hstep
  rw [Statement.step_fst] at hrow
  split at hrow
  · cases hrow
  · obtain ⟨values, content, hnext, rfl⟩ := Answer.outcome_eq_row hrow
    have hnames : (s.setMachine (Statement.step s.machine).2).names = s.names :=
      congrArg Program.columns (Statement.step_program s.machine)
    rw [hnames, List.length_map]
    exact h.wide hnext

theorem step_row_length (h : Inv s) (hstand : NamesStand recompile s) {row : List Value}
    {t : State C} (hstep : step recompile s = (.ok (some row), t)) :
    row.length = t.names.length := by
  rw [step, RubyM.get_bind] at hstep
  split at hstep
  · exact onMachine_row_length h hstep
  · rename_i hfirst
    rw [Bool.or_eq_true, not_or, Bool.not_eq_true, Bool.not_eq_true] at hfirst
    cases hrecompile : recompile s.machine.content with
    | ok program =>
        rw [hrecompile] at hstep
        have hinv := inv_setProgram h (hstand hfirst.1 hfirst.2 program hrecompile)
        exact onMachine_row_length hinv hstep
    | error failure =>
        obtain ⟨e, he, -⟩ := check_errorStatus failure.1 failure.2
        rw [hrecompile] at hstep
        simp [he] at hstep

theorem columns_eq (columnDecltype : Program C → List (Option String)) (h : Inv s) :
    ∃ t, columns columnDecltype s = (.ok s.names, t) ∧ t.names = s.names := by
  rw [columns, RubyM.get_bind]
  cases hcolumns : s.columns with
  | none => exact ⟨_, rfl, rfl⟩
  | some names =>
      have hcached := h.cached names hcolumns
      refine ⟨s, ?_, rfl⟩
      simp [hcolumns, hcached]

/-- A hash has the names of the columns. -/
theorem nextHash_aligned (h : Inv s) (hstand : NamesStand recompile s)
    {hash : List (String × Value)} {t : State C}
    (hnext : nextHash recompile columnDecltype s = (.ok (some hash), t))
    (hnodup : t.names.Nodup) :
    ∃ row u, step recompile s = (.ok (some row), u) ∧ Aligned t.names row hash := by
  rw [nextHash, RubyM.bind_eq_ok_iff] at hnext
  obtain ⟨row, u, hstep, hnext⟩ := hnext
  have hu : Inv u := by
    have hinv := inv_step h hstand
    rwa [hstep] at hinv
  rw [RubyM.get_bind] at hnext
  split at hnext
  · cases hnext
  · obtain ⟨v, hcolumns, hnames⟩ := columns_eq columnDecltype hu
    rw [RubyM.bind_run_ok _ _ hcolumns] at hnext
    cases row with
    | none => cases hnext
    | some row =>
        obtain ⟨hhash, rfl⟩ := Prod.mk.inj hnext
        obtain rfl := Option.some.inj (Outcome.ok.inj hhash)
        have hlength := step_row_length h hstand hstep
        rw [hnames] at hnodup ⊢
        exact ⟨row, u, hstep, zipToH_aligned hnodup hlength⟩

/-- In a run in which no step compiles the statement to other names than the cached ones, the
hashes are aligned. -/
theorem hashes_aligned (host : Host) (recompile : Recompile C)
    (columnDecltype : Program C → List (Option String)) (program : WideProgram C) (content : C)
    (actions : List (Action C))
    (hmeets : StepSystem.AlwaysStep (act host recompile columnDecltype) (Meets host recompile)
      (prepared program content) actions) :
    StepSystem.AlwaysStep (act host recompile columnDecltype)
      (HashAligned recompile columnDecltype) (prepared program content) actions := by
  have hinv := inv_prepared program content
  generalize prepared program content = s at hmeets hinv
  induction actions generalizing s with
  | nil => trivial
  | cons action actions ih =>
      intro t ht
      obtain ⟨haction, hrest⟩ := hmeets t ht
      refine ⟨?_, ih t hrest (inv_act hinv haction ht)⟩
      cases action with
      | nextHash => exact fun hash t hnext hnodup => nextHash_aligned hinv haction hnext hnodup
      | _ => trivial

end Hashes

/-- `select * from t`, where `t` has one row. The content says whether `t` has got a second
column. -/
def selectAll (extended : Bool) : Program Bool where
  columns := "a" :: if extended then ["b"] else []
  parameterCount := 0
  parameterIndex _ := 0
  answer earlier now :=
    if earlier.isEmpty then
      .row none (.integer 1 :: if extended then [.integer 2] else []) now.content
    else .done none now.content
  rowless h := by cases h

theorem selectAll_wide (extended : Bool) {earlier : List (View Bool)} {now : View Bool}
    {pending : Option RubyException} {values : List SqliteValue} {content : Bool}
    (h : (selectAll extended).answer earlier now = .row pending values content) :
    values.length = (selectAll extended).columns.length := by
  unfold selectAll at h ⊢
  simp only at h
  split at h
  · obtain ⟨-, rfl, -⟩ := Answer.row.inj h
    cases extended <;> rfl
  · cases h

def wideSelectAll (extended : Bool) : WideProgram Bool :=
  ⟨selectAll extended, selectAll_wide extended⟩

/-- `alter table t add column b`, after a first hash. -/
def extendBetween : List (Action Bool) := [.nextHash, .resetBang, .change true, .nextHash]

theorem extendFirst_aligned :
    StepSystem.AlwaysStep
      (act Statement.littleHost (fun content => .ok (wideSelectAll content)) fun _ => [])
      (HashAligned (fun content => .ok (wideSelectAll content)) fun _ => [])
      (prepared (wideSelectAll false) false) [.change true, .nextHash] := by
  apply hashes_aligned
  intro s hs
  obtain rfl := Option.some.inj hs
  refine ⟨trivial, fun t ht => ⟨?_, trivial⟩⟩
  intro _ _ program _
  exact Or.inl rfl

/-- The second hash lacks the new column. -/
theorem extendBetween_not_aligned :
    ¬ StepSystem.AlwaysStep
      (act Statement.littleHost (fun content => .ok (wideSelectAll content)) fun _ => [])
      (HashAligned (fun content => .ok (wideSelectAll content)) fun _ => [])
      (prepared (wideSelectAll false) false) extendBetween := by
  intro h
  obtain ⟨row, u, -, hnames, -⟩ := ((((h _ rfl).2 _ rfl).2 _ rfl).2 _ rfl).1
    [("a", .integer 1)] _ rfl (by decide)
  cases hnames

end Sqlite3Ruby.Metadata
