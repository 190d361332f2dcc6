import Sqlite3Ruby.Batch

/-!
# The first value of a query

`get_first_value` takes the first value of the first row by its place, or by the name of its
column when `results_as_hash` is set. A hash keeps the last value of a name.
-/

namespace Sqlite3Ruby.Query

variable {C : Type}

def Database.withHash (db : Database C) (resultsAsHash : Bool) : Database C :=
  { db with resultsAsHash }

section Agreement

variable (host : Host) (compile : List UInt8 → C → Compiled C) (db : Database C) (sql : RString)
  (vars : List BindVar)

/-- The first step of the bound statement answers this. -/
def FirstStep (columns : List String) (row : Option (List Value)) : Prop :=
  ∃ program m, Compiles host compile db sql program ∧ program.columns = columns ∧
    Statement.bindParams host vars (db.machine { program }) = (.ok (), m) ∧
    m.next.outcome = .ok row

/-- `get_first_value` does not depend on `results_as_hash`, and returns the first value of the
first row, or `nil` where there is no row. -/
structure FirstValueAgrees (rounds : Nat) : Prop where
  same : result (getFirstValue host compile sql vars) (db.withHash true) rounds =
    result (getFirstValue host compile sql vars) (db.withHash false) rounds
  row : ∀ {columns row}, FirstStep host compile db sql vars columns (some row) →
    ∀ isHash, result (getFirstValue host compile sql vars) (db.withHash isHash) rounds =
      some (.ok (row.head?.getD .nil))
  noRow : ∀ {columns}, FirstStep host compile db sql vars columns none →
    ∀ isHash, result (getFirstValue host compile sql vars) (db.withHash isHash) rounds =
      some (.ok .nil)

end Agreement

/-- The last column with the name of the first one holds the same value. -/
def FirstNameStands (columns : List String) (row : List Value) : Prop :=
  ∀ (i : Nat) (name : String), columns.head? = some name → columns[i]? = some name →
    (∀ j > i, columns[j]? ≠ some name) → row[i]?.getD .nil = row.head?.getD .nil

/-! ## A value by its name -/

/-- The value of a key. -/
def hashAref (hash : List (String × Value)) (key : String) : Option Value :=
  (hash.find? fun e => key = e.1).map (·.2)

theorem hashAref_cons (e : String × Value) (hash : List (String × Value)) (key : String) :
    hashAref (e :: hash) key = if key = e.1 then some e.2 else hashAref hash key := by
  rw [hashAref, hashAref, List.find?_cons]
  by_cases h : key = e.1 <;> simp [h]

theorem hashAref_append (hash hash' : List (String × Value)) (key : String) :
    hashAref (hash ++ hash') key = (hashAref hash key).or (hashAref hash' key) := by
  rw [hashAref, hashAref, hashAref, List.find?_append]
  cases hash.find? fun e => key = e.1 <;> rfl

theorem hashAref_map (hash : List (String × Value)) (key key' : String) (value : Value) :
    hashAref (hash.map fun e => if e.1 = key then (key, value) else e) key' =
      if key' = key then (hashAref hash key').map fun _ => value else hashAref hash key' := by
  induction hash with
  | nil => simp [hashAref]
  | cons e hash ih =>
      rw [List.map_cons, hashAref_cons, hashAref_cons, ih]
      by_cases he : e.1 = key
      · rw [if_pos he, he]
        by_cases hkey : key' = key <;> simp [hkey]
      · rw [if_neg he]
        by_cases hkey : key' = key
        · have hne : key' ≠ e.1 := fun h => he (h ▸ hkey)
          simp [hkey, hkey ▸ hne]
        · simp [hkey]

/-- What was put into a hash last is found. -/
theorem hashAref_hashAset (hash : List (String × Value)) (key key' : String) (value : Value) :
    hashAref (hashAset hash key value) key' =
      if key' = key then some value else hashAref hash key' := by
  rw [hashAset]
  split
  · rename_i hold
    rw [hashAref_map]
    by_cases hkey : key' = key
    · rw [if_pos hkey, if_pos hkey, hkey]
      obtain ⟨e, he, hekey⟩ := List.any_eq_true.mp hold
      have hfound : (hash.find? fun e => key = e.1).isSome = true :=
        List.find?_isSome.mpr ⟨e, he, by simpa [eq_comm] using hekey⟩
      rw [hashAref, Option.map_map]
      obtain ⟨found, hfound⟩ := Option.isSome_iff_exists.mp hfound
      rw [hfound]
      rfl
    · rw [if_neg hkey, if_neg hkey]
  · rename_i hnew
    rw [hashAref_append, hashAref_cons]
    by_cases hkey : key' = key
    · have hnone : hash.find? (fun e => key = e.1) = none := by
        rw [List.find?_eq_none]
        intro e he hekey
        exact hnew (List.any_eq_true.mpr ⟨e, he, by simpa [eq_comm] using hekey⟩)
      rw [hkey, hashAref, hnone]
      simp
    · rw [if_neg hkey, if_neg hkey, hashAref, hashAref]
      simp

/-- The last entry of a key is the one that is found. -/
theorem hashAref_foldl (entries hash : List (String × Value)) (key : String) :
    hashAref (entries.foldl (fun hash entry => hashAset hash entry.1 entry.2) hash) key =
      (hashAref entries.reverse key).or (hashAref hash key) := by
  induction entries generalizing hash with
  | nil => rfl
  | cons entry entries ih =>
      rw [List.foldl_cons, ih, hashAref_hashAset, List.reverse_cons, hashAref_append,
        hashAref_cons, Option.or_assoc]
      by_cases hkey : key = entry.1
      · simp [hkey]
      · simp [hkey, hashAref]

/-- In a row that is zipped with names, the last value of a name is found. -/
theorem hashAref_zip {name : String} {columns : List String} {values : List Value}
    (hlength : columns.length ≤ values.length) {i : Nat} (hname : columns[i]? = some name)
    (hlast : ∀ j > i, columns[j]? ≠ some name) :
    hashAref (columns.zip values).reverse name = values[i]? := by
  induction columns generalizing values i with
  | nil => simp at hname
  | cons column columns ih =>
      cases values with
      | nil => simp at hlength
      | cons value values =>
          rw [List.length_cons, List.length_cons, Nat.add_le_add_iff_right] at hlength
          rw [List.zip_cons_cons, List.reverse_cons, hashAref_append, hashAref_cons]
          cases i with
          | zero =>
              have hnone : hashAref (columns.zip values).reverse name = none := by
                rw [hashAref, Option.map_eq_none_iff, List.find?_eq_none]
                intro e he hkey
                obtain ⟨j, hj⟩ := List.mem_iff_getElem?.mp
                  (List.of_mem_zip (List.mem_reverse.mp he)).1
                exact hlast (j + 1) (Nat.succ_pos j) (by simpa [of_decide_eq_true hkey] using hj)
              have hcolumn : column = name := by simpa using hname
              simp [hnone, hcolumn]
          | succ i =>
              rw [List.getElem?_cons_succ] at hname
              have hrest := ih hlength hname fun j hj => by simpa using hlast (j + 1) (by omega)
              have hi : i < columns.length := (List.getElem?_eq_some_iff.mp hname).1
              have hvalue : values[i]? = some values[i] := List.getElem?_eq_getElem (by omega)
              rw [hrest, hvalue, List.getElem?_cons_succ, hvalue]
              rfl

theorem exists_last {name : String} {columns : List String} (h : name ∈ columns) :
    ∃ i : Nat, columns[i]? = some name ∧ ∀ j > i, columns[j]? ≠ some name := by
  induction columns with
  | nil => cases h
  | cons column columns ih =>
      by_cases hrest : name ∈ columns
      · obtain ⟨i, hi, hlast⟩ := ih hrest
        refine ⟨i + 1, by simpa using hi, fun j hj => ?_⟩
        obtain ⟨j, rfl⟩ := Nat.exists_eq_succ_of_ne_zero (Nat.ne_zero_of_lt hj)
        simpa using hlast j (by omega)
      · obtain rfl := (List.mem_cons.mp h).resolve_right hrest
        refine ⟨0, rfl, fun j hj hname => hrest ?_⟩
        obtain ⟨j, rfl⟩ := Nat.exists_eq_succ_of_ne_zero (Nat.ne_zero_of_lt hj)
        exact List.mem_iff_getElem?.mpr ⟨j, by simpa using hname⟩

/-- The first value by its name is the last one of that name. -/
theorem firstValue_hash_iff {columns : List String} (h : columns ≠ []) (row : List Value) :
    firstValue (.hash (zipToH columns row)) columns = row.head?.getD .nil ↔
      FirstNameStands columns row := by
  obtain ⟨name, rest, rfl⟩ := List.exists_cons_of_ne_nil h
  obtain ⟨i, hi, hlast⟩ := exists_last (List.mem_cons_self (a := name) (l := rest))
  have hlt : i < (name :: rest).length := (List.getElem?_eq_some_iff.mp hi).1
  have hvalue : firstValue (.hash (zipToH (name :: rest) row)) (name :: rest) =
      row[i]?.getD .nil := by
    have hfind : firstValue (.hash (zipToH (name :: rest) row)) (name :: rest) =
        (hashAref (zipToH (name :: rest) row) name).getD .nil := by
      simp [firstValue, hashAref]
    have hpadded : (row ++ List.replicate (name :: rest).length Value.nil)[i]? =
        some (row[i]?.getD .nil) := by
      rcases Nat.lt_or_ge i row.length with hrow | hrow
      · rw [List.getElem?_append_left hrow, List.getElem?_eq_getElem hrow]
        rfl
      · rw [List.getElem?_append_right hrow, List.getElem?_eq_none hrow,
          List.getElem?_replicate_of_lt (by omega)]
        rfl
    rw [hfind, zipToH, hashAref_foldl, hashAref_zip (by simp) hi hlast, hpadded]
    rfl
  rw [hvalue]
  constructor
  · intro hsame k name' hhead hk hlast'
    obtain rfl := Option.some.inj hhead
    obtain rfl : k = i := by
      rcases Nat.lt_trichotomy k i with hlt | heq | hlt
      · exact absurd hi (hlast' i hlt)
      · exact heq
      · exact absurd hk (hlast k hlt)
    exact hsame
  · intro hstands
    exact hstands i name rfl hi hlast

/-! ## The call -/

section Calls

variable {host : Host} {compile : List UInt8 → C → Compiled C} {db : Database C} {sql : RString}
  {vars : List BindVar} {program : Program C} {stmt : Prepared} {rounds : Nat}

/-- What `get_first_value` makes of the answer to a first step. -/
def firstOf (isHash : Bool) (columns : List String) : Option (List Value) → Value
  | none => .nil
  | some row => firstValue (if isHash then .hash (zipToH columns row) else .array row) columns

/-- The block of `get_first_value`. -/
def firstBlock (rs : ResultSet) : QueryM C Value := do
  match ← rs.next with
  | none => pure .nil
  | some row => do
      let columns ← columns rs.stmt
      pure (firstValue row columns)

theorem getFirstValue_eq (host : Host) (compile : List UInt8 → C → Compiled C) (sql : RString)
    (vars : List BindVar) :
    getFirstValue host compile sql vars = queryBlock host compile sql (.array vars) firstBlock :=
  rfl

/-- The block at a statement that is not done. -/
theorem firstBlock_run {s : Statement C} (rounds : Nat) (isHash : Bool)
    (h : db.statement stmt.id = some s) (hdone : s.doneP = false) :
    ∃ m, firstBlock ⟨stmt, isHash⟩ rounds db =
      some (firstOf isHash s.program.columns <$> (db.machine s).next.outcome, db.put stmt.id m) := by
  have hrun := next_handsOut (C := C) ⟨stmt, isHash⟩ s.program.columns rounds db s h rfl
  have hput := Database.statement_put h (Statement.step (db.machine s)).2
  rw [Statement.step_fst, show (db.machine s).statement.doneP = false from hdone,
    if_neg Bool.false_ne_true] at hrun
  refine ⟨(Statement.step (db.machine s)).2, ?_⟩
  cases hanswer : (db.machine s).next.outcome with
  | raise e =>
      rw [hanswer] at hrun
      exact CallM.bind_run_raise _ hrun
  | jump tag => exact absurd hanswer (Answer.outcome_ne_jump _ tag)
  | ok row =>
      rw [hanswer] at hrun
      cases row with
      | none => exact CallM.bind_run_ok none _ hrun
      | some row =>
          have hcolumns := columns_run hput rounds
          rw [show (Statement.step (db.machine s)).2.statement.program = s.program from
            Statement.step_program (db.machine s)] at hcolumns
          exact (CallM.bind_run_ok (some _) _ hrun).trans (CallM.bind_run_ok _ _ hcolumns)

/-- The block at a statement that is done. -/
theorem firstBlock_done {s : Statement C} (isHash : Bool) (h : db.statement stmt.id = some s)
    (hdone : s.doneP = true) : firstBlock ⟨stmt, isHash⟩ rounds db = some (.ok .nil, db) :=
  CallM.bind_run_ok none _
    ((next_handsOut (C := C) ⟨stmt, isHash⟩ s.program.columns).done rounds h rfl hdone)

/-- A query whose statement is executed comes to its block. -/
theorem queryBlock_result {α : Type} {block : ResultSet → QueryM C α} {db₁ db₂ : Database C}
    {rs : ResultSet} {o : Outcome α}
    (hquery : query host compile sql (.array vars) rounds db = some (.ok rs, db₁))
    (hblock : block rs rounds db₁ = some (o, db₂)) {s : Statement C}
    (hopen : db₂.statement rs.stmt.id = some s) :
    result (queryBlock host compile sql (.array vars) block) db rounds = some o := by
  have hclose : close rs.stmt rounds db₂ = some (.ok (), db₂.finalize rs.stmt.id) := by
    rw [close, CallM.get_bind, hopen, if_pos (by rfl)]
    rfl
  have hrun : queryBlock host compile sql (.array vars) block rounds db =
      some (o, db₂.finalize rs.stmt.id) :=
    (CallM.bind_run_ok rs _ hquery).trans (CallM.ensure_run hblock hclose)
  rw [result, hrun]
  rfl

theorem queryBlock_raise {α : Type} {block : ResultSet → QueryM C α} {db₁ : Database C}
    {e : RubyException}
    (hquery : query host compile sql (.array vars) rounds db = some (.raise e, db₁)) :
    result (queryBlock host compile sql (.array vars) block) db rounds = some (.raise e) := by
  rw [result, queryBlock, CallM.bind_run_raise _ hquery]
  rfl

/-- `execute` of the new statement of a query, once its parameters are bound. -/
theorem query_execute (rounds : Nat) (h : Compiles host compile db sql program) {o : Outcome Unit}
    {m : Machine C} (hbound : Statement.bindParams host vars (db.machine { program }) = (o, m)) :
    ∃ stmt, (db.push (some { program })).statement stmt.id = some { program } ∧
      query host compile sql (.array vars) rounds db =
        (statementExecute host stmt [.array vars]) rounds (db.push (some { program })) ∧
      onStatement stmt (Statement.execute host [.array vars]) rounds (db.push (some { program })) =
        let r := ((RubyM.lift o : StatementM C Unit) >>= fun _ =>
          if program.columns.isEmpty then do
            let _ ← Statement.step
            pure ()
          else pure ()) (m.withEvents (db.events ++ [.reset]))
        some (r.1, (db.push (some { program })).put stmt.id r.2) := by
  obtain ⟨stmt, hid, hprepare⟩ := prepare_run h rounds
  have hnew : (db.push (some { program })).statement stmt.id = some { program } := by
    rw [hid]
    exact Database.statement_push _ _
  have hbound' : Statement.bindParams host [.array vars]
      ((db.push (some { program })).machine { program }) = (o, m) := by
    rw [bindParams_array]
    exact hbound
  refine ⟨stmt, hnew, CallM.bind_run_ok stmt _ hprepare, ?_⟩
  rw [onStatement_run hnew, execute_fresh hbound']
  rfl

/-- `get_first_value` of a query that compiles and is bound. -/
theorem getFirstValue_result (h : Compiles host compile db sql program) {bindings : Bindings}
    (hbound : Statement.bindParams host vars (db.machine { program }) =
      (.ok (), (db.machine { program }).setBindings bindings)) :
    result (getFirstValue host compile sql vars) db rounds =
      some (firstOf db.resultsAsHash program.columns <$>
        ((db.machine { program }).setBindings bindings).next.outcome) := by
  obtain ⟨stmt, hnew, hquery, hrun⟩ := query_execute rounds h hbound
  let m := boundStatement db program bindings
  have hm : ((db.machine { program }).setBindings bindings).next = m.next := rfl
  have hfirst {m' : Machine C}
      (hexecute : onStatement stmt (Statement.execute host [.array vars]) rounds
        (db.push (some { program })) = some (.ok (), (db.push (some { program })).put stmt.id m')) :
      query host compile sql (.array vars) rounds db =
        some (.ok ⟨stmt, db.resultsAsHash⟩, (db.push (some { program })).put stmt.id m') :=
    hquery.trans (CallM.bind_run_ok () _ hexecute)
  rw [RubyM.lift_ok_bind] at hrun
  rw [getFirstValue_eq, hm]
  by_cases hcolumns : program.columns = []
  · rw [if_pos (by simpa using hcolumns)] at hrun
    rcases rowless_cases (m := m) hcolumns with hanswer | ⟨e, hanswer⟩
    · have hlast : (Statement.step >>= fun _ => (pure () : StatementM C Unit)) m =
          (.ok (), m.stepped.setDoneP true) :=
        RubyM.bind_run_ok none _ (Statement.step_last rfl hanswer)
      have hput := Database.statement_put hnew (m.stepped.setDoneP true)
      rw [show ((db.machine { program }).setBindings bindings).withEvents (db.events ++ [.reset]) = m
        from rfl, hlast] at hrun
      rw [hanswer]
      exact queryBlock_result (hfirst hrun) (firstBlock_done _ hput rfl) hput
    · obtain ⟨m', hstep⟩ : ∃ m', Statement.step m = (.raise e, m') :=
        ⟨_, Prod.ext (Statement.step_raise rfl hanswer) rfl⟩
      have hraise : (Statement.step >>= fun _ => (pure () : StatementM C Unit)) m =
          (.raise e, m') := RubyM.bind_run_raise _ hstep
      rw [show ((db.machine { program }).setBindings bindings).withEvents (db.events ++ [.reset]) = m
        from rfl, hraise] at hrun
      rw [hanswer]
      exact queryBlock_raise (hquery.trans (CallM.bind_run_raise _ hrun))
  · rw [if_neg (by simpa using hcolumns)] at hrun
    have hput := Database.statement_put hnew m
    obtain ⟨m', hblock⟩ := firstBlock_run rounds db.resultsAsHash hput rfl
    exact queryBlock_result (hfirst hrun) hblock (Database.statement_put hput m')

/-- The text compiles and its parameters are bound. -/
def Runnable (host : Host) (compile : List UInt8 → C → Compiled C) (db : Database C)
    (sql : RString) (vars : List BindVar) : Prop :=
  ∃ program bindings, Compiles host compile db sql program ∧
    Statement.bindParams host vars (db.machine { program }) =
      (.ok (), (db.machine { program }).setBindings bindings)

/-- `prepare` does not look at `results_as_hash`. -/
theorem prepare_withHash (host : Host) (compile : List UInt8 → C → Compiled C) (sql : RString)
    (rounds : Nat) (db : Database C) (isHash : Bool) :
    prepare host compile sql rounds (db.withHash isHash) =
      (prepare host compile sql rounds db).map fun r => (r.1, r.2.withHash isHash) := by
  rw [prepare, CallM.get_bind, CallM.get_bind]
  by_cases hopen : db.isOpen = true
  · rw [if_pos hopen, if_pos (show (db.withHash isHash).isOpen = true from hopen)]
    cases strEncodeUtf8 host sql with
    | raise e => rfl
    | jump tag => rfl
    | ok text =>
        rw [CallM.lift_ok_bind, CallM.lift_ok_bind,
          show (db.withHash isHash).content = db.content from rfl]
        cases compile (sqlRead text) db.content with
        | statement program tail => rfl
        | noStatement tail => rfl
        | error status errmsg =>
            obtain ⟨e, he, -⟩ := check_errorStatus status errmsg
            simp [he]
  · rw [if_neg hopen, if_neg (show ¬ (db.withHash isHash).isOpen = true from hopen)]
    rfl

/-- Where they are not, the query ends without regard to `results_as_hash`. -/
theorem query_exit (rounds : Nat) (h : ¬ Runnable host compile db sql vars) :
    ∃ o : Outcome ResultSet, ¬ o.Returns ∧ ∀ isHash, ∃ db',
      query host compile sql (.array vars) rounds (db.withHash isHash) = some (o, db') := by
  rcases prepare_cases host compile sql rounds db with
    ⟨program, -, hcompiles, -, -⟩ | ⟨-, ⟨stmt, hid, hprepare⟩ | ⟨o, ho, hprepare⟩⟩
  · have hcompiles' (isHash : Bool) : Compiles host compile (db.withHash isHash) sql program :=
      hcompiles
    rcases hbound : Statement.bindParams host vars (db.machine { program }) with ⟨o, m⟩
    cases o with
    | ok _ =>
        obtain ⟨bindings, rfl⟩ := bound_same hbound
        exact absurd ⟨program, bindings, hcompiles, hbound⟩ h
    | raise e =>
        refine ⟨.raise e, Outcome.not_returns_raise e, fun isHash => ?_⟩
        obtain ⟨stmt, -, hquery, hrun⟩ := query_execute rounds (hcompiles' isHash) hbound
        exact ⟨_, hquery.trans (CallM.bind_run_raise _ hrun)⟩
    | jump tag =>
        refine ⟨.jump tag, Outcome.not_returns_jump tag, fun isHash => ?_⟩
        obtain ⟨stmt, -, hquery, hrun⟩ := query_execute rounds (hcompiles' isHash) hbound
        exact ⟨_, hquery.trans (CallM.bind_run_jump _ hrun)⟩
  · refine ⟨.raise closedStatement, Outcome.not_returns_raise _, fun isHash => ?_⟩
    have hrun := prepare_withHash host compile sql rounds db isHash
    rw [hprepare] at hrun
    have hclosed : ((db.push none).withHash isHash).statement stmt.id = none := by
      rw [hid]
      exact Database.statement_push db none
    have hexecute := onStatement_closed hclosed (Statement.execute host [.array vars]) rounds
    exact ⟨_, (CallM.bind_run_ok stmt _ hrun).trans (CallM.bind_run_raise _ hexecute)⟩
  · have hrun (isHash : Bool) : prepare host compile sql rounds (db.withHash isHash) =
        some (o, db.withHash isHash) := by
      rw [prepare_withHash, hprepare]
      rfl
    cases o with
    | ok stmt => exact absurd (Outcome.returns_ok stmt) ho
    | raise e =>
        exact ⟨.raise e, Outcome.not_returns_raise e, fun isHash =>
          ⟨_, CallM.bind_run_raise _ (hrun isHash)⟩⟩
    | jump tag =>
        exact ⟨.jump tag, Outcome.not_returns_jump tag, fun isHash =>
          ⟨_, CallM.bind_run_jump _ (hrun isHash)⟩⟩

/-- The only first step there is. -/
theorem FirstStep.unique (hcompiles : Compiles host compile db sql program) {bindings : Bindings}
    (hbound : Statement.bindParams host vars (db.machine { program }) =
      (.ok (), (db.machine { program }).setBindings bindings))
    {columns : List String} {row : Option (List Value)}
    (hstep : FirstStep host compile db sql vars columns row) :
    program.columns = columns ∧
      ((db.machine { program }).setBindings bindings).next.outcome = .ok row := by
  obtain ⟨program', m, hcompiles', hcolumns, hbound', hanswer⟩ := hstep
  obtain rfl := hcompiles.unique hcompiles'
  obtain ⟨-, rfl⟩ := Prod.mk.inj (hbound.symm.trans hbound')
  exact ⟨hcolumns, hanswer⟩

/-- The two ways to the value of a statement that runs. -/
theorem agrees_of_runs (hcompiles : Compiles host compile db sql program) {bindings : Bindings}
    (hbound : Statement.bindParams host vars (db.machine { program }) =
      (.ok (), (db.machine { program }).setBindings bindings)) (rounds : Nat) :
    FirstValueAgrees host compile db sql vars rounds ↔
      ∀ columns row, FirstStep host compile db sql vars columns (some row) →
        FirstNameStands columns row := by
  have hresult (isHash : Bool) :
      result (getFirstValue host compile sql vars) (db.withHash isHash) rounds =
        some (firstOf isHash program.columns <$>
          ((db.machine { program }).setBindings bindings).next.outcome) := by
    have hcompiles' : Compiles host compile (db.withHash isHash) sql program := hcompiles
    exact getFirstValue_result hcompiles' hbound
  have hcolumns {row : List Value}
      (hanswer : ((db.machine { program }).setBindings bindings).next.outcome =
        .ok (some row)) : program.columns ≠ [] := by
    intro hnil
    rcases rowless_cases (m := (db.machine { program }).setBindings bindings) hnil with
      hnone | ⟨e, hraise⟩
    · cases hanswer.symm.trans hnone
    · cases hanswer.symm.trans hraise
  constructor
  · intro hagree columns row hstep
    obtain ⟨rfl, hanswer⟩ := hstep.unique hcompiles hbound
    have hvalue := hagree.row hstep true
    rw [hresult, hanswer] at hvalue
    exact (firstValue_hash_iff (hcolumns hanswer) row).mp
      (Outcome.ok.inj (Option.some.inj hvalue))
  · intro hstands
    have hrow {columns : List String} {row : List Value}
        (hstep : FirstStep host compile db sql vars columns (some row)) (isHash : Bool) :
        result (getFirstValue host compile sql vars) (db.withHash isHash) rounds =
          some (.ok (row.head?.getD .nil)) := by
      obtain ⟨rfl, hanswer⟩ := hstep.unique hcompiles hbound
      rw [hresult, hanswer]
      cases isHash with
      | false => rfl
      | true =>
          have hvalue := (firstValue_hash_iff (hcolumns hanswer) row).mpr (hstands _ row hstep)
          exact congrArg (fun v => some (Outcome.ok v)) hvalue
    have hnone {columns : List String}
        (hstep : FirstStep host compile db sql vars columns none) (isHash : Bool) :
        result (getFirstValue host compile sql vars) (db.withHash isHash) rounds =
          some (.ok .nil) := by
      obtain ⟨rfl, hanswer⟩ := hstep.unique hcompiles hbound
      rw [hresult, hanswer]
      rfl
    refine ⟨?_, hrow, hnone⟩
    cases hanswer : ((db.machine { program }).setBindings bindings).next.outcome with
    | ok row =>
        have hstep : FirstStep host compile db sql vars program.columns row :=
          ⟨program, _, hcompiles, rfl, hbound, hanswer⟩
        cases row with
        | none => rw [hnone hstep, hnone hstep]
        | some row => rw [hrow hstep, hrow hstep]
    | raise e =>
        rw [hresult, hresult, hanswer]
        rfl
    | jump tag => exact absurd hanswer (Answer.outcome_ne_jump _ tag)

/-- `get_first_value` does not depend on `results_as_hash` exactly when the last column with
the name of the first one holds the first value, if there is a row. -/
theorem firstValue_agrees_iff (host : Host) (compile : List UInt8 → C → Compiled C)
    (db : Database C) (sql : RString) (vars : List BindVar) (rounds : Nat) :
    FirstValueAgrees host compile db sql vars rounds ↔
      ∀ columns row, FirstStep host compile db sql vars columns (some row) →
        FirstNameStands columns row := by
  by_cases h : Runnable host compile db sql vars
  · obtain ⟨program, bindings, hcompiles, hbound⟩ := h
    exact agrees_of_runs hcompiles hbound rounds
  · have hnot {columns : List String} {row : Option (List Value)}
        (hstep : FirstStep host compile db sql vars columns row) : False := by
      obtain ⟨program, m, hcompiles, -, hbound, -⟩ := hstep
      obtain ⟨bindings, rfl⟩ := bound_same hbound
      exact h ⟨program, bindings, hcompiles, hbound⟩
    refine iff_of_true ⟨?_, fun hstep => (hnot hstep).elim, fun hstep => (hnot hstep).elim⟩
      fun _ _ hstep => (hnot hstep).elim
    obtain ⟨o, ho, hquery⟩ := query_exit rounds h
    obtain ⟨db₁, htrue⟩ := hquery true
    obtain ⟨db₂, hfalse⟩ := hquery false
    rw [getFirstValue_eq]
    cases o with
    | ok rs => exact absurd (Outcome.returns_ok rs) ho
    | raise e => rw [queryBlock_raise htrue, queryBlock_raise hfalse]
    | jump tag =>
        rw [result, result, queryBlock, CallM.bind_run_jump _ htrue, CallM.bind_run_jump _ hfalse]
        rfl

end Calls

/-- `select 1 as a, 2 as a` -/
def twoNamesProgram : Program Unit := oneRow ["a", "a"] (by decide) [.integer 1, .integer 2]

/-- With `results_as_hash` the value is that of the second column. -/
theorem twoNames_disagree :
    ¬ FirstValueAgrees Statement.littleHost (fun _ _ => .statement twoNamesProgram [])
      (newDatabase ()) (utf8String []) [] 0 := by
  intro hagree
  have hfirst : FirstStep Statement.littleHost (fun _ _ => .statement twoNamesProgram [])
      (newDatabase ()) (utf8String []) [] ["a", "a"] (some [.integer 1, .integer 2]) :=
    ⟨twoNamesProgram, _, ⟨rfl, [], [], rfl, rfl⟩, rfl, rfl, rfl⟩
  have hvalue : some (Outcome.ok (Value.integer 2)) = some (.ok (.integer 1)) :=
    hagree.row hfirst true
  cases hvalue

end Sqlite3Ruby.Query
