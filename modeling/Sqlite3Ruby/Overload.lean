import Sqlite3Ruby.Registration

/-!
# Functions of one name and several arities

`create_function` is documented to add a function under a name and an arity.
The arity is not passed on: the block that the method registers takes any
number of arguments, so SQLite gets `-1` for each definition.

## Implementation notes

The block of the `i`-th call is the object `i`, since each call makes a block
of its own around the user's.
-/

namespace Sqlite3Ruby.Registration

/-- The arguments of `create_function`, and SQLite's answer. -/
structure Definition where
  name : List UInt8
  arity : Int
  textRep : Value
  answer : Answer

/-- `create_function`. The arity is a parameter that the method does not use. -/
def Definition.run (d : Definition) (block : ObjectId) : DatabaseM Unit :=
  createFunction d.name d.textRep block d.answer

def Answer.isOk : Answer → Bool
  | ok => true
  | error _ _ => false

/-- The call returns: its flags are a C `int` and SQLite takes the function. -/
def Definition.isTaken (d : Definition) : Bool :=
  decide (num2int d.textRep).Returns && d.answer.isOk

/-- A new connection after a list of calls, each with its block. -/
def defineAll (ds : List (Definition × ObjectId)) : Database :=
  ds.foldl (fun db d => (d.1.run d.2 db).2) Database.new

/-- How SQLite resolves a call with `k` arguments; without a function, preparing
the call fails. -/
def Sqlite.resolve (s : Sqlite) (name : List UInt8) (k : Nat) : Option UserData :=
  (s.functions ⟨sqliteName name, k⟩).or (s.functions ⟨sqliteName name, -1⟩)

/-! ## What the documentation says -/

/-- The definitions of one name that were taken. -/
def named (ds : List (Definition × ObjectId)) (name : List UInt8) :
    List (Definition × ObjectId) :=
  ds.filter fun d => d.1.isTaken && sqliteName d.1.name = sqliteName name

/-- The block of the latest definition with an arity. -/
def latest (ds : List (Definition × ObjectId)) (arity : Int) : Option ObjectId :=
  (ds.filter fun d => d.1.arity = arity).getLast?.map (·.2)

/-- The block that a call with `k` arguments should invoke: that of the latest
definition with this arity, or else of the latest with any number of arguments. -/
def intended (ds : List (Definition × ObjectId)) (k : Nat) : Option ObjectId :=
  (latest ds k).or (latest ds (-1))

/-! ## What the code registers -/

theorem requireOpenDb_run {db : Database} (hopen : db.isOpen = true) :
    requireOpenDb db = (.ok (), db) := by
  rw [requireOpenDb, RubyM.get_bind, if_pos hopen]
  rfl

/-- A definition that is taken is registered for any number of arguments; one that
is refused leaves the connection as it was. -/
theorem Definition.run_snd (d : Definition) (block : ObjectId) {db : Database}
    (hopen : db.isOpen = true) :
    (d.run block db).2 =
      if d.isTaken then
        { db with
          sqlite := db.sqlite.setFunction ⟨sqliteName d.name, -1⟩ (.scalar block)
          functions := db.functions.push block }
      else db := by
  rw [run, createFunction, defineFunctionWithFlags,
    RubyM.bind_run_ok () _ (requireOpenDb_run hopen), isTaken]
  cases num2int d.textRep with
  | raise e => simp
  | jump tag => simp
  | ok flags =>
      cases hanswer : d.answer with
      | ok => simp [Answer.isOk, checkSqlite, Answer.check]; rfl
      | error status errmsg =>
          obtain ⟨e, he, -⟩ := check_errorStatus status errmsg
          simp [Answer.isOk, checkSqlite, Answer.check, he]

/-- Every function is registered for any number of arguments, with the block of the
last definition of its name. -/
theorem defineAll_functions (ds : List (Definition × ObjectId)) :
    (defineAll ds).isOpen = true ∧ ∀ name arity,
      (defineAll ds).sqlite.functions ⟨sqliteName name, arity⟩ =
        if arity = -1 then (named ds name).getLast?.map (.scalar ·.2) else none := by
  induction ds using List.reverseRecOn with
  | nil => exact ⟨rfl, fun name arity => by simp [defineAll, named, Database.new, Sqlite.empty]⟩
  | append_singleton ds d ih =>
      obtain ⟨hopen, hfunctions⟩ := ih
      have hrun : defineAll (ds ++ [d]) = (d.1.run d.2 (defineAll ds)).2 := by
        simp [defineAll]
      rw [hrun, d.1.run_snd d.2 hopen]
      cases htaken : d.1.isTaken with
      | false =>
          refine ⟨hopen, fun name arity => ?_⟩
          have hnamed : named (ds ++ [d]) name = named ds name := by
            simp [named, List.filter_append, htaken]
          rw [hnamed]
          exact hfunctions name arity
      | true =>
          refine ⟨hopen, fun name arity => ?_⟩
          simp only [if_true, Sqlite.setFunction, Function.update_apply]
          by_cases hname : sqliteName d.1.name = sqliteName name
          · have hnamed : named (ds ++ [d]) name = named ds name ++ [d] := by
              simp [named, List.filter_append, htaken, hname]
            rw [hnamed, List.getLast?_concat, hfunctions name arity]
            by_cases harity : arity = -1
            · simp [harity, hname]
            · simp [harity]
          · have hnamed : named (ds ++ [d]) name = named ds name := by
              simp [named, List.filter_append, htaken, hname]
            rw [hnamed, hfunctions name arity]
            simp [Ne.symm hname]

theorem resolve_defineAll (ds : List (Definition × ObjectId)) (name : List UInt8) (k : Nat) :
    (defineAll ds).sqlite.resolve name k = (named ds name).getLast?.map (.scalar ·.2) := by
  have hfunctions := (defineAll_functions ds).2 name
  have hk : (k : Int) ≠ -1 := by omega
  rw [Sqlite.resolve, hfunctions, hfunctions, if_neg hk, if_pos rfl, Option.none_or]

/-! ## When the two agree -/

theorem latest_concat (ds : List (Definition × ObjectId)) (d : Definition × ObjectId)
    (arity : Int) :
    latest (ds ++ [d]) arity = if d.1.arity = arity then some d.2 else latest ds arity := by
  by_cases h : d.1.arity = arity
  · simp [latest, List.filter_append, h]
  · simp [latest, List.filter_append, h]

theorem latest_eq_none_iff (ds : List (Definition × ObjectId)) (arity : Int) :
    latest ds arity = none ↔ ∀ d ∈ ds, d.1.arity ≠ arity := by
  simp [latest]

/-- The block of a definition further up the list. -/
theorem mem_of_latest {ds : List (Definition × ObjectId)} {arity : Int} {block : ObjectId}
    (h : latest ds arity = some block) : block ∈ ds.map (·.2) := by
  obtain ⟨d, hd, rfl⟩ := Option.map_eq_some_iff.mp h
  exact List.mem_map_of_mem (List.mem_of_mem_filter (List.mem_of_getLast? hd))

/-- The last definition is the one to invoke when it has the arity of the call, or any
arity while no other has that of the call. -/
theorem intended_eq_last_iff {ds : List (Definition × ObjectId)} (hblocks : (ds.map (·.2)).Nodup)
    {d : Definition × ObjectId} (hlast : ds.getLast? = some d) (k : Nat) :
    intended ds k = some d.2 ↔
      d.1.arity = k ∨ (d.1.arity = -1 ∧ ∀ d' ∈ ds, d'.1.arity ≠ k) := by
  obtain ⟨init, rfl⟩ := List.getLast?_eq_some_iff.mp hlast
  have hother (arity : Int) : latest init arity ≠ some d.2 := by
    intro h
    rw [List.map_append, List.nodup_append] at hblocks
    exact hblocks.2.2 d.2 (mem_of_latest h) d.2 (by simp) rfl
  rw [intended, latest_concat, latest_concat]
  by_cases hk : d.1.arity = k
  · simp [hk]
  · rw [if_neg hk]
    by_cases hany : d.1.arity = -1
    · rw [if_pos hany]
      cases hfound : latest init k with
      | none =>
          have hnone := (latest_eq_none_iff init k).mp hfound
          refine iff_of_true rfl (Or.inr ⟨hany, fun d' hd' => ?_⟩)
          rcases List.mem_append.mp hd' with hd' | hd'
          · exact hnone d' hd'
          · exact List.mem_singleton.mp hd' ▸ hk
      | some block =>
          apply iff_of_false
          · intro h
            exact hother k (hfound.trans h)
          · rintro (h | ⟨-, h⟩)
            · exact hk h
            · have hnone := (latest_eq_none_iff init k).mpr fun d' hd' =>
                h d' (List.mem_append_left _ hd')
              exact absurd (hnone.symm.trans hfound) (by simp)
    · rw [if_neg hany]
      apply iff_of_false
      · intro h
        rcases Option.or_eq_some_iff.mp h with h | ⟨-, h⟩
        · exact hother k h
        · exact hother (-1) h
      · rintro (h | ⟨h, -⟩)
        · exact hk h
        · exact hany h

/-- After any list of definitions, a call with `k` arguments is resolved as documented
exactly when the last definition of the name is the one it should invoke. -/
theorem resolved_as_defined_iff (ds : List Definition) (name : List UInt8) (k : Nat) :
    (defineAll ds.zipIdx).sqlite.resolve name k =
        (intended (named ds.zipIdx name) k).map .scalar ↔
      ∀ d, (named ds.zipIdx name).getLast? = some d →
        d.1.arity = k ∨ (d.1.arity = -1 ∧ ∀ d' ∈ named ds.zipIdx name, d'.1.arity ≠ k) := by
  rw [resolve_defineAll]
  have hnumbers : (ds.zipIdx.map (·.2)).Nodup := by
    rw [List.zipIdx_map_snd]
    exact List.nodup_range'
  have hblocks : ((named ds.zipIdx name).map (·.2)).Nodup :=
    hnumbers.sublist (List.filter_sublist.map _)
  cases hlast : (named ds.zipIdx name).getLast? with
  | none =>
      rw [List.getLast?_eq_none_iff] at hlast
      simp [hlast, intended, latest]
  | some d =>
      simp only [Option.map_some, Option.some.injEq, forall_eq']
      rw [← intended_eq_last_iff hblocks hlast k]
      cases intended (named ds.zipIdx name) k with
      | none => simp
      | some block => simp [eq_comm]

/-- `create_function "f", 1` and then `create_function "f", 2`. -/
def twoArities : List Definition := [⟨[102], 1, .integer 1, .ok⟩, ⟨[102], 2, .integer 1, .ok⟩]

/-- A call with one argument invokes the block that was defined for two. -/
theorem secondArity_replaces_first :
    (defineAll twoArities.zipIdx).sqlite.resolve [102] 1 ≠
      (intended (named twoArities.zipIdx [102]) 1).map .scalar := by
  decide

end Sqlite3Ruby.Registration
