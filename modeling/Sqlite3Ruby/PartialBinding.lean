import Sqlite3Ruby.History

/-!
# Bind variables up to the first that is refused

`bind_params` binds its variables one after the other, and the first that cannot be bound ends
it with an exception. What was bound before stays bound.

## Implementation notes

A value that is too big for SQLite has replaced what was bound, with NULL, when the exception
is raised; every other refusal leaves the parameter alone.
-/

namespace Sqlite3Ruby.Statement

variable {C : Type} (host : Host)

/-- `bind_param` raises for a key and a value, and leaves these bindings. -/
inductive EntryFails (program : Program C) (entry : ParamKey × Value) (bindings : Bindings) :
    RubyException → Bindings → Prop
  | key {e} (hkey : entry.1.index program = .raise e) :
      EntryFails program entry bindings e bindings
  | missing (hkey : entry.1.index program = .ok 0) :
      EntryFails program entry bindings ⟨.SQLite3Exception, "no such bind parameter"⟩ bindings
  | value {index e} (hkey : entry.1.index program = .ok index) (hindex : index ≠ 0)
      (hvalue : bindCall host entry.2 = .raise e) :
      EntryFails program entry bindings e bindings
  | range {index call e} (hkey : entry.1.index program = .ok index) (hindex : index ≠ 0)
      (hvalue : bindCall host entry.2 = .ok call)
      (hrange : index < 1 ∨ program.parameterCount < index)
      (he : check 25 (bindErrmsg 25) = .raise e) :
      EntryFails program entry bindings e bindings
  | tooBig {index call e} (hkey : entry.1.index program = .ok index) (hindex : index ≠ 0)
      (hvalue : bindCall host entry.2 = .ok call)
      (hrange : ¬ (index < 1 ∨ program.parameterCount < index))
      (hstored : call.stored host.byteOrder = .tooBig)
      (he : check 18 (bindErrmsg 18) = .raise e) :
      EntryFails program entry bindings e (Function.update bindings index.toNat (.value .null))

/-- Each entry is bound up to one that is refused. -/
inductive StopsAt (program : Program C) :
    Bindings → List (ParamKey × Value) → RubyException → Bindings → Prop
  | here {bindings entry entries e bound}
      (h : EntryFails host program entry bindings e bound) :
      StopsAt program bindings (entry :: entries) e bound
  | later {bindings entry entries e bound write} (h : Writes host program entry write)
      (hrest : StopsAt program (Function.update bindings write.1 write.2) entries e bound) :
      StopsAt program bindings (entry :: entries) e bound

/-! ## One variable -/

theorem sqlite3Bind_refused {m : Machine C} (hready : m.statement.vm.isReady = true) {index : Int}
    (hrange : index < 1 ∨ m.statement.program.parameterCount < index) (stored : Stored) :
    sqlite3Bind index stored m = (.ok 25, m) := by
  simp [sqlite3Bind, hready, hrange]

theorem sqlite3Bind_accepted {m : Machine C} (hready : m.statement.vm.isReady = true) {index : Int}
    (hrange : ¬ (index < 1 ∨ m.statement.program.parameterCount < index)) (stored : Stored) :
    sqlite3Bind index stored m = (.ok stored.status,
      m.setBindings (Function.update m.statement.bindings index.toNat
        (if stored.status = 0 then stored else .value .null))) := by
  simp [sqlite3Bind, hready, hrange]

/-- `bind_param` of a machine that is ready raises for one of five reasons. -/
theorem bindParam_eq_raise_iff {m m' : Machine C} (hready : m.statement.vm.isReady = true)
    {key : ParamKey} {value : Value} {e : RubyException} :
    bindParam host key value m = (.raise e, m') ↔
      ∃ bound, EntryFails host m.statement.program (key, value) m.statement.bindings e bound ∧
        m' = m.setBindings bound := by
  have hself : m = m.setBindings m.statement.bindings := rfl
  rw [bindParam, RubyM.get_bind]
  constructor
  · intro h
    cases hkey : key.index m.statement.program with
    | raise e' =>
        rw [hkey, RubyM.lift_raise_bind] at h
        obtain ⟨he, rfl⟩ := Prod.mk.inj h
        obtain rfl := Outcome.raise.inj he
        exact ⟨_, .key hkey, hself⟩
    | jump tag =>
        rw [hkey, RubyM.lift_jump_bind] at h
        cases (Prod.mk.inj h).1
    | ok index =>
        rw [hkey, RubyM.lift_ok_bind] at h
        by_cases hindex : index = 0
        · subst hindex
          rw [if_pos rfl] at h
          obtain ⟨he, rfl⟩ := Prod.mk.inj h
          obtain rfl := Outcome.raise.inj he
          exact ⟨_, .missing hkey, hself⟩
        · rw [if_neg hindex] at h
          cases hvalue : bindCall host value with
          | raise e' =>
              rw [hvalue, RubyM.lift_raise_bind] at h
              obtain ⟨he, rfl⟩ := Prod.mk.inj h
              obtain rfl := Outcome.raise.inj he
              exact ⟨_, .value hkey hindex hvalue, hself⟩
          | jump tag =>
              rw [hvalue, RubyM.lift_jump_bind] at h
              cases (Prod.mk.inj h).1
          | ok call =>
              rw [hvalue, RubyM.lift_ok_bind] at h
              by_cases hrange : index < 1 ∨ (m.statement.program.parameterCount : Int) < index
              · rw [RubyM.bind_run_ok _ _ (sqlite3Bind_refused hready hrange _),
                  RubyM.lift_run] at h
                obtain ⟨he, rfl⟩ := Prod.mk.inj h
                exact ⟨_, .range hkey hindex hvalue hrange he, hself⟩
              · rw [RubyM.bind_run_ok _ _ (sqlite3Bind_accepted hready hrange _),
                  RubyM.lift_run] at h
                obtain ⟨he, rfl⟩ := Prod.mk.inj h
                cases hstored : call.stored host.byteOrder with
                | tooBig =>
                    rw [hstored] at he
                    exact ⟨_, .tooBig hkey hindex hvalue hrange hstored he, rfl⟩
                | value x =>
                    rw [hstored] at he
                    cases he
                | unspecified =>
                    rw [hstored] at he
                    cases he
  · rintro ⟨bound, h, rfl⟩
    cases h with
    | key hkey =>
        change key.index m.statement.program = _ at hkey
        rw [hkey, RubyM.lift_raise_bind, ← hself]
    | missing hkey =>
        change key.index m.statement.program = _ at hkey
        rw [hkey, RubyM.lift_ok_bind, if_pos rfl, ← hself]
        rfl
    | value hkey hindex hvalue =>
        change key.index m.statement.program = _ at hkey
        change bindCall host value = _ at hvalue
        rw [hkey, RubyM.lift_ok_bind, if_neg hindex, hvalue, RubyM.lift_raise_bind, ← hself]
    | range hkey hindex hvalue hrange he =>
        change key.index m.statement.program = _ at hkey
        change bindCall host value = _ at hvalue
        rw [hkey, RubyM.lift_ok_bind, if_neg hindex, hvalue, RubyM.lift_ok_bind,
          RubyM.bind_run_ok _ _ (sqlite3Bind_refused hready hrange _), RubyM.lift_run, he, ← hself]
    | tooBig hkey hindex hvalue hrange hstored he =>
        change key.index m.statement.program = _ at hkey
        change bindCall host value = _ at hvalue
        rw [hkey, RubyM.lift_ok_bind, if_neg hindex, hvalue, RubyM.lift_ok_bind,
          RubyM.bind_run_ok _ _ (sqlite3Bind_accepted hready hrange _), RubyM.lift_run, hstored]
        exact congrArg (·, _) he

/-! ## All of them -/

theorem bindEntries_eq_raise_iff {entries : List (ParamKey × Value)} {m m' : Machine C}
    (hready : m.statement.vm.isReady = true) {e : RubyException} :
    bindEntries host entries m = (.raise e, m') ↔
      ∃ bound, StopsAt host m.statement.program m.statement.bindings entries e bound ∧
        m' = m.setBindings bound := by
  induction entries generalizing m with
  | nil =>
      constructor
      · intro h
        cases (Prod.mk.inj h).1
      · rintro ⟨bound, h, -⟩
        cases h
  | cons entry entries ih =>
      rw [bindEntries]
      constructor
      · intro h
        rcases hfirst : bindParam host entry.1 entry.2 m with ⟨o, t⟩
        cases o with
        | ok u =>
            obtain ⟨write, hwrite, -, rfl⟩ := (bindParam_eq_ok_iff host).mp hfirst
            rw [RubyM.bind_run_ok u _ hfirst] at h
            obtain ⟨bound, hrest, rfl⟩ :=
              (ih (m := m.setBindings (Function.update m.statement.bindings write.1 write.2))
                hready).mp h
            exact ⟨bound, .later hwrite hrest, rfl⟩
        | raise e' =>
            rw [RubyM.bind_run_raise _ hfirst] at h
            obtain ⟨he, rfl⟩ := Prod.mk.inj h
            obtain rfl := Outcome.raise.inj he
            obtain ⟨bound, hfails, rfl⟩ := (bindParam_eq_raise_iff host hready).mp hfirst
            exact ⟨bound, .here hfails, rfl⟩
        | jump tag =>
            rw [RubyM.bind_run_jump _ hfirst] at h
            cases (Prod.mk.inj h).1
      · rintro ⟨bound, h, rfl⟩
        cases h with
        | here hfails =>
            exact RubyM.bind_run_raise _
              ((bindParam_eq_raise_iff host hready).mpr ⟨bound, hfails, rfl⟩)
        | @later _ _ _ _ _ write hwrite hrest =>
            have hfirst := (bindParam_eq_ok_iff host).mpr ⟨write, hwrite, hready, rfl⟩
            rw [RubyM.bind_run_ok () _ hfirst]
            exact (ih (m := m.setBindings (Function.update m.statement.bindings write.1 write.2))
              hready).mpr ⟨bound, hrest, rfl⟩

/-- `insert into t values (?, ?)`. -/
def twoMarks : Program Nat := mixedProgram [.anonymous, .anonymous]

end Sqlite3Ruby.Statement
