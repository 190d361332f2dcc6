import Mathlib.Data.List.Forall2
import Sqlite3Ruby.DoneFlag

/-!
# Binding the parameters of a statement

`bind_params` comes down to a list of keys with their values, each bound by a call of
`bind_param`. If all of them return, each has written one parameter, and a parameter
holds what was written to it last.
-/

namespace Sqlite3Ruby.Statement

variable {C : Type} (host : Host)

/-- The calls of `bind_param` that `bind_params` makes. -/
def assignments (index : Int) : List FlatVar → List (ParamKey × Value)
  | [] => []
  | .hash entries :: vars => entries ++ assignments index vars
  | .value v :: vars => (.value (.integer index), v) :: assignments (index + 1) vars

/-- `bind_param` of this key and value writes this parameter. -/
structure Writes (program : Program C) (entry : ParamKey × Value) (write : Nat × Stored) :
    Prop where
  index : entry.1.index program = .ok (write.1 : Int)
  pos : 1 ≤ write.1
  le : write.1 ≤ program.parameterCount
  stored : Sqlite3Ruby.bindParam host entry.2 = .ok write.2

/-- What is bound after these writes. -/
def Bindings.write (bindings : Bindings) (writes : List (Nat × Stored)) : Bindings :=
  writes.foldl (fun bindings write => Function.update bindings write.1 write.2) bindings

/-! ## What is written last -/

theorem write_append (bindings : Bindings) (writes writes' : List (Nat × Stored)) :
    Bindings.write bindings (writes ++ writes') =
      Bindings.write (Bindings.write bindings writes) writes' :=
  List.foldl_append

/-- A parameter that is not written keeps what was bound to it. -/
theorem write_of_not_mem {i : Nat} {writes : List (Nat × Stored)} (h : i ∉ writes.map (·.1))
    (bindings : Bindings) : Bindings.write bindings writes i = bindings i := by
  induction writes generalizing bindings with
  | nil => rfl
  | cons write writes ih =>
      rw [List.map_cons, List.mem_cons, not_or] at h
      calc Bindings.write bindings (write :: writes) i
          = Function.update bindings write.1 write.2 i := ih h.2 _
        _ = bindings i := Function.update_of_ne h.1 ..

/-- A parameter that is written once. -/
theorem write_of_mem {i : Nat} {stored : Stored} {writes : List (Nat × Stored)}
    (hnodup : (writes.map (·.1)).Nodup) (h : (i, stored) ∈ writes) (bindings : Bindings) :
    Bindings.write bindings writes i = stored := by
  obtain ⟨before, after, rfl⟩ := List.append_of_mem h
  rw [List.map_append, List.map_cons, List.nodup_append] at hnodup
  have hafter : i ∉ after.map (·.1) := (List.nodup_cons.mp hnodup.2.1).1
  rw [write_append]
  calc Bindings.write (Bindings.write bindings before) ((i, stored) :: after) i
      = Function.update (Bindings.write bindings before) i stored i := write_of_not_mem hafter _
    _ = stored := Function.update_self ..

/-! ## `bind_param` -/

theorem bindEntries_append (entries entries' : List (ParamKey × Value)) :
    bindEntries (C := C) host (entries ++ entries') =
      (bindEntries host entries >>= fun _ => bindEntries host entries') := by
  induction entries with
  | nil => rfl
  | cons entry entries ih =>
      rw [List.cons_append, bindEntries, bindEntries, RubyM.bind_assoc]
      exact congrArg _ (funext fun _ => ih)

/-- `bind_params` binds its entries one after the other. -/
theorem bindEach_eq (index : Int) (vars : List FlatVar) :
    bindEach (C := C) host index vars = bindEntries host (assignments index vars) := by
  induction vars generalizing index with
  | nil => rfl
  | cons var vars ih =>
      cases var with
      | hash entries =>
          rw [assignments, bindEntries_append]
          exact congrArg _ (funext fun _ => ih index)
      | value v => exact congrArg _ (funext fun _ => ih (index + 1))

theorem stored_status_cases (stored : Stored) : stored.status = 0 ∨ stored.status = 18 := by
  cases stored with
  | value x => exact Or.inl rfl
  | tooBig => exact Or.inr rfl
  | unspecified => exact Or.inl rfl

/-- A value is stored unless it is too big. -/
theorem bindParam_eq_ok_iff_stored {value : Value} {stored : Stored} :
    Sqlite3Ruby.bindParam host value = .ok stored ↔
      ∃ call, bindCall host value = .ok call ∧ call.stored host.byteOrder = stored ∧
        stored.status = 0 := by
  constructor
  · intro h
    obtain ⟨call, hcall, hstored, hbig⟩ := bindParam_eq_ok h
    refine ⟨call, hcall, hstored, ?_⟩
    cases stored with
    | value x => rfl
    | tooBig => exact absurd rfl hbig
    | unspecified => rfl
  · rintro ⟨call, hcall, rfl, hstatus⟩
    simp [Sqlite3Ruby.bindParam, hcall, hstatus, check, status2klass]

/-- A `sqlite3_bind_*` call with its check. -/
theorem sqlite3Bind_check_eq_ok_iff {index : Int} {stored : Stored} {m m' : Machine C} :
    (do let status ← sqlite3Bind index stored
        RubyM.lift (check status (bindErrmsg status)) : StatementM C Unit) m = (.ok (), m') ↔
      m.statement.vm.isReady = true ∧ 1 ≤ index ∧ index ≤ m.statement.program.parameterCount ∧
        stored.status = 0 ∧
        m' = m.setBindings (Function.update m.statement.bindings index.toNat stored) := by
  have hrefused (status : Nat) (hrun : sqlite3Bind index stored m = (.ok status, m))
      (hstatus : status % 256 ≠ 0) :
      (do let status ← sqlite3Bind index stored
          RubyM.lift (check status (bindErrmsg status)) : StatementM C Unit) m ≠ (.ok (), m') := by
    rw [RubyM.bind_run_ok status _ hrun, RubyM.lift_run]
    intro h
    exact hstatus ((check_eq_ok_iff _ _).mp (Prod.mk.inj h).1)
  by_cases hready : m.statement.vm.isReady = true
  · by_cases hindex : index < 1 ∨ (m.statement.program.parameterCount : Int) < index
    · refine iff_of_false (hrefused 25 ?_ (by decide)) ?_
      · simp [sqlite3Bind, hready, hindex]
      · rintro ⟨-, hpos, hle, -⟩
        omega
    · have hrun : sqlite3Bind index stored m = (.ok stored.status,
          m.setBindings (Function.update m.statement.bindings index.toNat
            (if stored.status = 0 then stored else .value .null))) := by
        simp [sqlite3Bind, hready, hindex]
      rw [RubyM.bind_run_ok _ _ hrun, RubyM.lift_run, Prod.mk.injEq, check_eq_ok_iff]
      rw [not_or, not_lt, not_lt] at hindex
      rcases stored_status_cases stored with hstatus | hstatus
      · simp [hstatus, hready, hindex, eq_comm]
      · simp [hstatus]
  · refine iff_of_false (hrefused 21 ?_ (by decide)) fun h => hready h.1
    simp [sqlite3Bind, hready]

/-- A call of `bind_param` returns when the machine is ready, the key names a parameter and
the value can be stored. -/
theorem bindParam_eq_ok_iff {key : ParamKey} {value : Value} {m m' : Machine C} :
    bindParam host key value m = (.ok (), m') ↔
      ∃ write, Writes host m.statement.program (key, value) write ∧
        m.statement.vm.isReady = true ∧
        m' = m.setBindings (Function.update m.statement.bindings write.1 write.2) := by
  rw [bindParam, RubyM.get_bind, RubyM.bind_eq_ok_iff]
  constructor
  · rintro ⟨index, t, hkey, hrun⟩
    obtain ⟨hindex, rfl⟩ := Prod.mk.inj hkey
    split at hrun
    · cases hrun
    · obtain ⟨call, t, hvalue, hrun⟩ := RubyM.bind_eq_ok_iff.mp hrun
      obtain ⟨hcall, rfl⟩ := Prod.mk.inj hvalue
      obtain ⟨hready, hpos, hle, hstatus, rfl⟩ := sqlite3Bind_check_eq_ok_iff.mp hrun
      refine ⟨(index.toNat, call.stored host.byteOrder), ⟨?_, ?_, ?_, ?_⟩, hready, rfl⟩
      · rw [hindex]
        exact congrArg Outcome.ok (Int.toNat_of_nonneg (by omega)).symm
      · change 1 ≤ index.toNat
        omega
      · change index.toNat ≤ m.statement.program.parameterCount
        omega
      · exact (bindParam_eq_ok_iff_stored host).mpr ⟨call, hcall, rfl, hstatus⟩
  · rintro ⟨⟨i, stored⟩, hwrites, hready, rfl⟩
    obtain ⟨hindex, hpos, hle, hstored⟩ := hwrites
    obtain ⟨call, hcall, rfl, hstatus⟩ := (bindParam_eq_ok_iff_stored host).mp hstored
    have hne : ¬ ((i : Int) = 0) := by
      change 1 ≤ i at hpos
      omega
    refine ⟨i, m, congrArg (·, m) hindex, ?_⟩
    rw [if_neg hne, hcall, RubyM.lift_ok_bind]
    exact sqlite3Bind_check_eq_ok_iff.mpr ⟨hready, by exact_mod_cast hpos, by exact_mod_cast hle,
      hstatus, rfl⟩

/-- The calls of `bind_param` all return when each of them writes its parameter. -/
theorem bindEntries_eq_ok_iff {entries : List (ParamKey × Value)} {m m' : Machine C} :
    bindEntries host entries m = (.ok (), m') ↔
      ∃ writes, List.Forall₂ (Writes host m.statement.program) entries writes ∧
        (entries ≠ [] → m.statement.vm.isReady = true) ∧
        m' = m.setBindings (Bindings.write m.statement.bindings writes) := by
  induction entries generalizing m with
  | nil =>
      constructor
      · intro h
        obtain ⟨-, rfl⟩ := Prod.mk.inj h
        exact ⟨[], .nil, by simp, rfl⟩
      · rintro ⟨writes, hwrites, -, rfl⟩
        cases hwrites
        rfl
  | cons entry entries ih =>
      rw [bindEntries, RubyM.bind_eq_ok_iff]
      constructor
      · rintro ⟨_, t, hfirst, hrest⟩
        obtain ⟨write, hwrite, hready, rfl⟩ := (bindParam_eq_ok_iff host).mp hfirst
        obtain ⟨writes, hwrites, -, rfl⟩ := ih.mp hrest
        exact ⟨write :: writes, .cons hwrite hwrites, fun _ => hready, rfl⟩
      · rintro ⟨writes, hwrites, hready, rfl⟩
        cases hwrites with
        | cons hwrite hwrites =>
            refine ⟨(), _, (bindParam_eq_ok_iff host).mpr ⟨_, hwrite, hready (by simp), rfl⟩, ?_⟩
            exact ih.mpr ⟨_, hwrites, fun _ => hready (by simp), rfl⟩

/-- `bind_params` returns when each of its entries writes a parameter. -/
theorem bindParams_eq_ok_iff {vars : List BindVar} {m m' : Machine C} :
    bindParams host vars m = (.ok (), m') ↔
      ∃ writes, List.Forall₂ (Writes host m.statement.program) (assignments 1 (flattenAll vars))
          writes ∧
        (assignments 1 (flattenAll vars) ≠ [] → m.statement.vm.isReady = true) ∧
        m' = m.setBindings (Bindings.write m.statement.bindings writes) := by
  rw [bindParams, bindEach_eq]
  exact bindEntries_eq_ok_iff host

end Sqlite3Ruby.Statement
