import Sqlite3Ruby.Statement

/-!
# `done?` and the virtual machine

The flag `done_p` should say whether the machine stands at `SQLITE_DONE`. Two
things set them apart: `clear_bindings!` clears the flag and leaves the machine
alone, and `step` raises a pending exception before it looks at the answer.
-/

namespace Sqlite3Ruby.Statement

variable {C : Type} (host : Host)

/-- The methods of an open statement that touch the flag or the machine. -/
inductive Op
  | step
  | bindParam (key : ParamKey) (value : Value)
  | bindParams (vars : List BindVar)
  | resetBang
  | clearBindingsBang
  | execute (vars : List BindVar)

/-- A call, returning or raising. -/
def Op.run : Op → Machine C → Machine C
  | step, m => (Statement.step m).2
  | bindParam key value, m => (Statement.bindParam host key value m).2
  | bindParams vars, m => (Statement.bindParams host vars m).2
  | resetBang, m => (Statement.resetBang m).2
  | clearBindingsBang, m => (Statement.clearBindingsBang m).2
  | execute vars, m => (Statement.execute host vars m).2

def opStep (m : Machine C) (op : Op) : Option (Machine C) := some (op.run host m)

/-- A statement that has been prepared. -/
def prepared (program : Program C) (content : C) : Machine C := ⟨content, { program }, []⟩

/-- `done_p` tells whether the machine stands at `SQLITE_DONE`. -/
def Exact (m : Machine C) : Prop := m.statement.doneP = m.statement.vm.isDone

/-- No execution was started right after one that had completed: there is a
`sqlite3_reset` between them. -/
def NeverRerun (m : Machine C) : Prop :=
  m.events.IsChain fun a b => ¬ (a = .completed ∧ b = .started)

/-- The flag tracks the machine, and no completed statement was executed again. -/
def Tracked (m : Machine C) : Prop := Exact m ∧ NeverRerun m

/-- The next step reaches `SQLITE_DONE` with an exception pending. -/
def EndsPending (m : Machine C) : Prop := m.next.isDone = true ∧ m.next.pending ≠ none

/-- The condition on a call: `clear_bindings!` is not for a machine at `SQLITE_DONE`, and
no step gets there with an exception pending. -/
def Op.Meets (m : Machine C) : Op → Prop
  | step => m.statement.doneP = false → ¬ EndsPending m
  | clearBindingsBang => m.statement.vm.isDone = false
  | execute vars =>
      m.statement.program.columns = [] →
        ∀ m', (Statement.resetBang >>= fun _ => Statement.bindParams host vars) m = (.ok (), m') →
          ¬ EndsPending m'
  | _ => True

/-- The last event tells whether the machine stands at `SQLITE_DONE`. -/
def Inv (m : Machine C) : Prop :=
  m.events.getLast? = some .completed ↔ m.statement.vm.isDone = true

/-! ## Binding leaves the machine alone -/

/-- The machines differ in what is bound at most. -/
def SameButBindings (m m' : Machine C) : Prop := ∃ bindings, m' = m.setBindings bindings

theorem SameButBindings.refl (m : Machine C) : SameButBindings m m := ⟨m.statement.bindings, rfl⟩

theorem SameButBindings.trans {m m' m'' : Machine C} (h : SameButBindings m m')
    (h' : SameButBindings m' m'') : SameButBindings m m'' := by
  obtain ⟨bindings, rfl⟩ := h
  obtain ⟨bindings', rfl⟩ := h'
  exact ⟨bindings', rfl⟩

theorem sqlite3Bind_same (index : Int) (stored : Stored) (m : Machine C) :
    SameButBindings m (sqlite3Bind index stored m).2 := by
  unfold sqlite3Bind
  split
  · exact .refl m
  · split
    · exact .refl m
    · exact ⟨_, rfl⟩

/-- What every `sqlite3_bind_*` call respects, every `bind_param` does. -/
theorem bindParam_respects (R : Machine C → Machine C → Prop) (hrefl : ∀ m, R m m)
    (htrans : ∀ {m m' m''}, R m m' → R m' m'' → R m m'')
    (hbind : ∀ index stored m, R m (sqlite3Bind index stored m).2) (key : ParamKey)
    (value : Value) (m : Machine C) : R m (bindParam host key value m).2 := by
  rw [bindParam, RubyM.get_bind]
  apply RubyM.final_lift (hrefl m)
  intro index
  split
  · exact hrefl m
  · apply RubyM.final_lift (hrefl m)
    intro call
    apply RubyM.bind_respects R htrans (hbind _ _)
    exact fun _ => hrefl

theorem bindEntries_respects (R : Machine C → Machine C → Prop) (hrefl : ∀ m, R m m)
    (htrans : ∀ {m m' m''}, R m m' → R m' m'' → R m m'')
    (hbind : ∀ index stored m, R m (sqlite3Bind index stored m).2)
    (entries : List (ParamKey × Value)) (m : Machine C) :
    R m (bindEntries host entries m).2 := by
  induction entries generalizing m with
  | nil => exact hrefl m
  | cons entry entries ih =>
      exact RubyM.bind_respects R htrans
        (bindParam_respects host R hrefl htrans hbind entry.1 entry.2) (fun _ => ih) m

theorem bindEach_respects (R : Machine C → Machine C → Prop) (hrefl : ∀ m, R m m)
    (htrans : ∀ {m m' m''}, R m m' → R m' m'' → R m m'')
    (hbind : ∀ index stored m, R m (sqlite3Bind index stored m).2) (index : Int)
    (vars : List FlatVar) (m : Machine C) : R m (bindEach host index vars m).2 := by
  induction vars generalizing index m with
  | nil => exact hrefl m
  | cons var vars ih =>
      cases var with
      | hash entries =>
          exact RubyM.bind_respects R htrans
            (bindEntries_respects host R hrefl htrans hbind entries) (fun _ => ih index) m
      | value v =>
          exact RubyM.bind_respects R htrans
            (bindParam_respects host R hrefl htrans hbind _ v) (fun _ => ih (index + 1)) m

theorem bindParam_same (key : ParamKey) (value : Value) (m : Machine C) :
    SameButBindings m (bindParam host key value m).2 :=
  bindParam_respects host SameButBindings .refl .trans sqlite3Bind_same key value m

theorem bindEach_same (index : Int) (vars : List FlatVar) (m : Machine C) :
    SameButBindings m (bindEach host index vars m).2 :=
  bindEach_respects host SameButBindings .refl .trans sqlite3Bind_same index vars m

theorem SameButBindings.tracked_iff {m m' : Machine C} (h : SameButBindings m m') :
    Tracked m' ↔ Tracked m := by
  obtain ⟨bindings, rfl⟩ := h
  exact Iff.rfl

theorem SameButBindings.inv {m m' : Machine C} (h : SameButBindings m m') (hm : Inv m) :
    Inv m' := by
  obtain ⟨bindings, rfl⟩ := h
  exact hm

/-! ## One call -/

theorem inv_prepared (program : Program C) (content : C) : Inv (prepared program content) := by
  simp [Inv, prepared, Vm.isDone]

theorem tracked_prepared (program : Program C) (content : C) :
    Tracked (prepared program content) :=
  ⟨rfl, List.isChain_nil⟩

theorem reset_inv (m : Machine C) : Inv (m.reset.setDoneP false) := by
  simp [Inv, Machine.reset, Machine.setVm, Machine.record, Machine.setDoneP, Vm.isDone]

/-- After a reset the flag and the machine agree, whatever they were before. -/
theorem reset_tracked {m : Machine C} (h : NeverRerun m) : Tracked (m.reset.setDoneP false) := by
  refine ⟨rfl, List.isChain_append.mpr ⟨h, List.isChain_singleton _, ?_⟩⟩
  simp

/-- One `sqlite3_step`, in the three ways it can go. -/
theorem stepped_cases (m : Machine C) :
    let started := if m.statement.vm.isActive then [] else [VmEvent.started]
    (m.next.isDone = true ∧ m.stepped.statement.vm.isDone = true ∧
        m.stepped.events = m.events ++ started ++ [.completed]) ∨
      (m.next.isDone = false ∧ m.stepped.statement.vm.isDone = false ∧
        m.stepped.events = m.events ++ started) := by
  unfold Machine.stepped
  cases m.next with
  | row pending values content => exact Or.inr ⟨rfl, rfl, rfl⟩
  | done pending content => exact Or.inl ⟨rfl, rfl, (List.append_assoc _ _ _).symm⟩
  | error pending status errmsg content => exact Or.inr ⟨rfl, rfl, rfl⟩

theorem stepped_doneP (m : Machine C) : m.stepped.statement.doneP = m.statement.doneP := by
  unfold Machine.stepped
  cases m.next <;> rfl

theorem isActive_isDone {vm : Vm C} (h : vm.isActive = true) : vm.isDone = false := by
  cases vm <;> simp_all [Vm.isActive, Vm.isDone]

theorem stepped_inv {m : Machine C} (h : Inv m) : Inv m.stepped := by
  rw [Inv]
  rcases stepped_cases m with ⟨-, hvm, hevents⟩ | ⟨-, hvm, hevents⟩
  · simp [hvm, hevents]
  · rw [hvm, hevents]
    cases hactive : m.statement.vm.isActive with
    | true => simpa [Inv, isActive_isDone hactive] using h
    | false => simp

/-- A step that does not start over a completed execution. -/
theorem stepped_neverRerun {m : Machine C} (h : NeverRerun m) (hinv : Inv m)
    (hvm : m.statement.vm.isDone = false) : NeverRerun m.stepped := by
  have hlast : m.events.getLast? ≠ some .completed := by simpa [Inv, hvm] using hinv
  have hstarted : (m.events ++ if m.statement.vm.isActive then [] else [VmEvent.started]).IsChain
      fun a b => ¬ (a = .completed ∧ b = .started) := by
    split
    · rw [List.append_nil]
      exact h
    · refine List.isChain_append.mpr ⟨h, List.isChain_singleton _, ?_⟩
      rintro a ha b - ⟨rfl, -⟩
      exact hlast ha
  rcases stepped_cases m with ⟨-, -, hevents⟩ | ⟨-, -, hevents⟩
  · rw [NeverRerun, hevents]
    exact List.isChain_append.mpr ⟨hstarted, List.isChain_singleton _, by simp⟩
  · rw [NeverRerun, hevents]
    exact hstarted

/-- What `step` leaves behind. -/
theorem step_snd (m : Machine C) :
    (Statement.step m).2 =
      if m.statement.doneP then m
      else if m.next.pending ≠ none then m.stepped
      else if m.next.isDone then m.stepped.setDoneP true
      else if m.next.isRow then m.stepped
      else m.stepped.reset.setDoneP false := by
  rw [Statement.step, RubyM.get_bind]
  cases m.statement.doneP with
  | true => rfl
  | false =>
      simp only [Bool.false_eq_true, if_false, RubyM.modify_bind]
      cases hnext : m.next with
      | row pending values content => cases pending <;> rfl
      | done pending content => cases pending <;> rfl
      | error pending status errmsg content =>
          cases pending with
          | some e => rfl
          | none =>
              obtain ⟨e, he, -⟩ := check_errorStatus status errmsg
              simp [Answer.pending, Answer.isDone, Answer.isRow, he]

theorem step_inv {m : Machine C} (h : Inv m) : Inv (Statement.step m).2 := by
  have hstepped := stepped_inv h
  rw [step_snd]
  split
  · exact h
  · split
    · exact hstepped
    · split
      · exact hstepped
      · split
        · exact hstepped
        · exact reset_inv m.stepped

/-- A step keeps the flag and the machine together unless it ends with an exception
pending. -/
theorem step_tracked_iff {m : Machine C} (h : Tracked m) (hinv : Inv m) :
    Tracked (Statement.step m).2 ↔ (m.statement.doneP = false → ¬ EndsPending m) := by
  rw [step_snd]
  cases hdone : m.statement.doneP with
  | true => simpa using h
  | false =>
      have hvm : m.statement.vm.isDone = false := h.1 ▸ hdone
      have hrerun := stepped_neverRerun h.2 hinv hvm
      have hdoneP : m.stepped.statement.doneP = false := (stepped_doneP m).trans hdone
      simp only [Bool.false_eq_true, if_false, forall_const, EndsPending]
      rcases stepped_cases m with ⟨hnext, hstepped, -⟩ | ⟨hnext, hstepped, -⟩
      · by_cases hpending : m.next.pending = none
        · rw [if_neg (not_not.mpr hpending), if_pos hnext]
          exact iff_of_true ⟨hstepped.symm, hrerun⟩ fun hends => hends.2 hpending
        · rw [if_pos hpending]
          refine iff_of_false (fun htracked => ?_) (not_not.mpr ⟨hnext, hpending⟩)
          exact absurd (hdoneP.symm.trans (htracked.1.trans hstepped)) (by simp)
      · have hends : ¬ (m.next.isDone = true ∧ m.next.pending ≠ none) := by simp [hnext]
        have htracked : Tracked m.stepped := ⟨hdoneP.trans hstepped.symm, hrerun⟩
        refine iff_of_true ?_ hends
        split
        · exact htracked
        · rw [hnext, if_neg Bool.false_ne_true]
          split
          · exact htracked
          · exact reset_tracked hrerun

/-- `execute` resets the machine, whatever its flag says. -/
theorem execute_eq (vars : List BindVar) (m : Machine C) :
    Statement.execute host vars m =
      (do
        resetBang
        bindParams host vars
        if m.statement.program.columns.isEmpty then do
          let _ ← Statement.step
          pure ()
        else pure () : StatementM C Unit) m := by
  have hactive : (m.statement.isActive || m.statement.doneP) = true := by
    simp [Statement.isActive]
  rw [Statement.execute, RubyM.get_bind, if_pos hactive]
  cases vars with
  | nil => rfl
  | cons var vars => rfl

/-- A state that a sequence of calls leaves has the invariant if each of them keeps it. -/
theorem execute_inv (vars : List BindVar) (m : Machine C) :
    Inv (Statement.execute host vars m).2 := by
  have hkeeps {m m' m'' : Machine C} (h : Inv m → Inv m') (h' : Inv m' → Inv m'') :
      Inv m → Inv m'' := h' ∘ h
  rw [execute_eq]
  refine RubyM.bind_respects (fun m m' => Inv m → Inv m') hkeeps
    (fun m => (bindEach_same host 1 (flattenAll vars) m).inv) (fun _ m => ?_)
    (m.reset.setDoneP false) (reset_inv m)
  split
  · rw [RubyM.bind_pure_snd]
    exact step_inv
  · exact id

theorem op_inv {m : Machine C} (h : Inv m) (op : Op) : Inv (op.run host m) := by
  cases op with
  | step => exact step_inv h
  | bindParam key value => exact (bindParam_same host key value m).inv h
  | bindParams vars => exact (bindEach_same host 1 (flattenAll vars) m).inv h
  | resetBang => exact reset_inv m
  | clearBindingsBang => exact h
  | execute vars => exact execute_inv host vars m

/-- `execute` of a statement without columns steps it, after the reset. -/
theorem execute_tracked_iff {m : Machine C} (h : Tracked m) (vars : List BindVar) :
    Tracked (Statement.execute host vars m).2 ↔ (Op.execute vars).Meets host m := by
  let r := m.reset.setDoneP false
  have hsame := bindEach_same host 1 (flattenAll vars) r
  have hinv : Inv (bindParams host vars r).2 := hsame.inv (reset_inv m)
  have htracked : Tracked (bindParams host vars r).2 := hsame.tracked_iff.mpr (reset_tracked h.2)
  have hdone : (bindParams host vars r).2.statement.doneP = false := by
    obtain ⟨bindings, hbound⟩ := hsame
    exact congrArg (·.statement.doneP) hbound
  have hexecute : Statement.execute host vars m =
      (bindParams host vars >>= fun _ =>
        if m.statement.program.columns.isEmpty then do
          let _ ← Statement.step
          pure ()
        else pure () : StatementM C Unit) r := execute_eq host vars m
  have hmeets : (Op.execute vars).Meets host m ↔
      (m.statement.program.columns = [] →
        ∀ m', bindParams host vars r = (.ok (), m') → ¬ EndsPending m') := Iff.rfl
  rw [hexecute, hmeets]
  rcases hrun : bindParams host vars r with ⟨o, m'⟩
  rw [hrun] at hinv htracked hdone
  cases o with
  | raise e =>
      rw [RubyM.bind_run_raise _ hrun]
      exact iff_of_true htracked (by simp)
  | jump tag =>
      rw [RubyM.bind_run_jump _ hrun]
      exact iff_of_true htracked (by simp)
  | ok _ =>
      rw [RubyM.bind_run_ok () _ hrun]
      by_cases hcolumns : m.statement.program.columns = []
      · rw [if_pos (by simpa using hcolumns), RubyM.bind_pure_snd,
          step_tracked_iff htracked hinv]
        constructor
        · intro hends _ m'' hm''
          obtain ⟨-, rfl⟩ := Prod.mk.inj hm''
          exact hends hdone
        · intro hends _
          exact hends hcolumns m' rfl
      · rw [if_neg (by simpa using hcolumns)]
        exact iff_of_true htracked fun hnil => absurd hnil hcolumns

/-- One call keeps the flag and the machine together exactly when it meets the
condition. -/
theorem op_tracked_iff {m : Machine C} (h : Tracked m) (hinv : Inv m) (op : Op) :
    Tracked (op.run host m) ↔ op.Meets host m := by
  cases op with
  | step => exact step_tracked_iff h hinv
  | bindParam key value =>
      exact iff_of_true ((bindParam_same host key value m).tracked_iff.mpr h) trivial
  | bindParams vars =>
      exact iff_of_true ((bindEach_same host 1 (flattenAll vars) m).tracked_iff.mpr h) trivial
  | resetBang => exact iff_of_true (reset_tracked h.2) trivial
  | clearBindingsBang =>
      constructor
      · exact fun htracked => htracked.1.symm
      · exact fun hvm => ⟨hvm.symm, h.2⟩
  | execute vars => exact execute_tracked_iff host h vars

/-- Over any run of calls: the flag tracks the machine, and no completed statement is
executed again without a reset, exactly when every call meets the condition. -/
theorem done_tracked_iff (program : Program C) (content : C) (ops : List Op) :
    StepSystem.AlwaysState (opStep host) Tracked (prepared program content) ops ↔
      StepSystem.AlwaysStep (opStep host) (fun m op => op.Meets host m)
        (prepared program content) ops := by
  apply StepSystem.alwaysState_iff_alwaysStep _ _ (inv_prepared program content)
    (tracked_prepared program content)
  · intro m op m' h hstep
    obtain rfl := Option.some.inj hstep
    exact op_inv host h op
  · intro m op m' h htracked hstep
    obtain rfl := Option.some.inj hstep
    exact op_tracked_iff host htracked h op

/-- `insert into t values (?)`, on a database whose content is its number of rows. -/
def insertProgram : Program Nat where
  columns := []
  parameterCount := 1
  parameterIndex _ := 0
  answer _ now := .done none (now.content + 1)
  rowless _ _ _ := rfl

/-- The row is inserted a second time after `clear_bindings!`. -/
def stepClearStep : List Op := [.step, .clearBindingsBang, .step]

/-- A little-endian host with a `long` of eight bytes, and no converters. -/
def littleHost : Host where
  long := .eight
  byteOrder := .little
  transcode _ _ := none
  characters _ bytes := some (bytes.map fun b => (b.toNat, [b]))
  isDummy _ := false
  conversionFailure encoding _ :=
    .converterNotFound ("code converter not found (" ++ encoding.name ++ " to UTF-8)")

theorem clearBindings_reruns :
    ¬ StepSystem.AlwaysState (opStep littleHost) Tracked (prepared insertProgram 0)
      stepClearStep := by
  intro h
  have hexec : StepSystem.exec (opStep littleHost) (prepared insertProgram 0) stepClearStep =
      some ⟨2, { program := insertProgram, vm := .done, doneP := true },
        [.started, .completed, .started, .completed]⟩ := rfl
  have hrerun : NeverRerun _ := (h.last hexec).2
  simp [NeverRerun] at hrerun

end Sqlite3Ruby.Statement
