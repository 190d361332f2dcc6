import Sqlite3Ruby.Transaction

/-!
# Programs with transaction blocks

Ruby code that writes, raises, rescues and opens transaction blocks, within one another
too. Only the outermost blocks are transactions: SQLite refuses the BEGIN of one within another,
and that block is not called. To whoever else looks at the database, an outermost block
happens at once or not at all.

## Implementation notes

What SQLite answers stands at the place of the code where it is asked. A program has no
loops, so each of its places is come to once at most.
-/

namespace Sqlite3Ruby

/-- `begin body; rescue; handler; end`, for a `StandardError`. -/
def RubyM.rescueStandard {σ : Type} (body handler : RubyM σ Unit) : RubyM σ Unit := fun s =>
  if Transaction.abortOf (body s).1 then handler (body s).2 else body s

/-! ## Code that is the same code on a part of the state -/

/-- Where the state is made by `φ`, the code does what `f` does on what it is made of. -/
def RubyM.Simulates {σ τ α : Type} (φ : σ → τ) (m : RubyM τ α) (f : RubyM σ α) : Prop :=
  ∀ s, m (φ s) = ((f s).1, φ (f s).2)

namespace RubyM

variable {σ τ α β : Type} {φ : σ → τ}

theorem simulates_lift (o : Outcome α) : Simulates φ (lift o) (lift o) := fun _ => rfl

theorem simulates_pure (a : α) : Simulates φ (pure a) (pure a) := fun _ => rfl

theorem Simulates.bind {m : RubyM τ α} {f : RubyM σ α} {k : α → RubyM τ β} {l : α → RubyM σ β}
    (h : Simulates φ m f) (hk : ∀ a, Simulates φ (k a) (l a)) : Simulates φ (m >>= k) (f >>= l) := by
  intro s
  have hm := h s
  rcases hf : f s with ⟨o, t⟩
  rw [hf] at hm
  cases o with
  | ok a =>
      rw [bind_run_ok a k hm, bind_run_ok a l hf]
      exact hk a t
  | raise e => rw [bind_run_raise k hm, bind_run_raise l hf]
  | jump tag => rw [bind_run_jump k hm, bind_run_jump l hf]

theorem Simulates.ensure {m : RubyM τ α} {f : RubyM σ α} {k : RubyM τ Unit} {l : RubyM σ Unit}
    (h : Simulates φ m f) (hk : Simulates φ k l) :
    Simulates φ (RubyM.ensure m k) (RubyM.ensure f l) := by
  intro s
  rw [RubyM.ensure, RubyM.ensure, h s]
  exact hk.bind (fun _ => simulates_lift (f s).1) (f s).2

/-- The clause has the last word on the state. -/
theorem ensure_snd (m : RubyM σ α) (clause : RubyM σ Unit) (s : σ) :
    (RubyM.ensure m clause s).2 = (clause (m s).2).2 := by
  rw [RubyM.ensure]
  rcases hclause : clause (m s).2 with ⟨o, t⟩
  cases o with
  | ok u => exact congrArg Prod.snd (bind_run_ok u (fun _ => lift (m s).1) hclause)
  | raise e => exact congrArg Prod.snd (bind_run_raise (fun _ => lift (m s).1) hclause)
  | jump tag => exact congrArg Prod.snd (bind_run_jump (fun _ => lift (m s).1) hclause)

theorem Simulates.rescueStandard {m k : RubyM τ Unit} {f l : RubyM σ Unit} (h : Simulates φ m f)
    (hk : Simulates φ k l) :
    Simulates φ (RubyM.rescueStandard m k) (RubyM.rescueStandard f l) := by
  intro s
  rw [RubyM.rescueStandard, RubyM.rescueStandard, h s]
  split
  · exact hk (f s).2
  · rfl

end RubyM

namespace Transaction

/-- Ruby code on a connection. -/
inductive Block (C : Type)
  | skip
  | write (w : Write C) (status : ErrorStatus) (errmsg : String)
  | raise (e : RubyException)
  | throw (tag : String)
  | seq (first second : Block C)
  | rescue (body handler : Block C)
  | ensure (body clause : Block C)
  | transaction (sqlite : Sqlite) (mode : Option String) (body : Block C)

variable {C : Type}

/-- `execute` of a write, which raises for an error. -/
def execute (w : Write C) (status : ErrorStatus) (errmsg : String) : DbM C Unit := fun db =>
  match w db.view with
  | .done c => (.ok (), db.put c)
  | .failed c => (check status.1 errmsg, db.put c)
  | .rolledBack => (check status.1 errmsg, { db with txn := none })

namespace Block

section Semantics

variable (defaultMode : String)

/-- The code on the connection. -/
def run : Block C → DbM C Unit
  | skip => pure ()
  | write w status errmsg => execute w status errmsg
  | raise e => RubyM.lift (.raise e)
  | throw tag => RubyM.lift (.jump tag)
  | seq first second => do
      first.run
      second.run
  | rescue body handler => RubyM.rescueStandard body.run handler.run
  | ensure body clause => RubyM.ensure body.run clause.run
  | transaction sqlite mode body => Transaction.transaction sqlite defaultMode mode body.run

/-- What another connection reads after each statement, one after the other: the permanent
content. -/
def seen : Block C → Connection C → List C
  | skip, _ => []
  | write w status errmsg, db => [(execute w status errmsg db).2.content]
  | raise _, _ => []
  | throw _, _ => []
  | seq first second, db =>
      first.seen db ++
        match first.run defaultMode db with
        | (.ok _, db) => second.seen db
        | _ => []
  | rescue body handler, db =>
      body.seen db ++
        if abortOf (body.run defaultMode db).1 then handler.seen (body.run defaultMode db).2 else []
  | ensure body clause, db => body.seen db ++ clause.seen (body.run defaultMode db).2
  | transaction sqlite mode body, db =>
      match executeBegin sqlite (mode.getD defaultMode) db with
      | (.ok _, db') =>
          db'.content :: body.seen db' ++
            [((transaction sqlite mode body).run defaultMode db).2.content]
      | (_, db') => [db'.content]

/-! ## The code without a connection -/

/-- What a write makes of the content. -/
def writeOn (w : Write C) (status : ErrorStatus) (errmsg : String) : RubyM C Unit := fun c =>
  match w c with
  | .done c => (.ok (), c)
  | .failed c => (check status.1 errmsg, c)
  | .rolledBack => (check status.1 errmsg, c)

/-- The code inside a block, on the content that the block reads. A block within is refused. -/
def inside : Block C → RubyM C Unit
  | skip => pure ()
  | write w status errmsg => writeOn w status errmsg
  | raise e => RubyM.lift (.raise e)
  | throw tag => RubyM.lift (.jump tag)
  | seq first second => do
      first.inside
      second.inside
  | rescue body handler => RubyM.rescueStandard body.inside handler.inside
  | ensure body clause => RubyM.ensure body.inside clause.inside
  | transaction sqlite _ _ => RubyM.lift (check sqliteError.1 sqlite.errmsg)

/-- A block that happens at once: its body on the content as it was, which comes back
if the body raises a `StandardError` or SQLite rolls back. -/
def atOnce (sqlite : Sqlite) (mode : String) (body : RubyM C Unit) : RubyM C Unit := fun c =>
  match sqlite.begin_ ("begin " ++ mode ++ " transaction") with
  | some status => (check status.1 sqlite.errmsg, c)
  | none =>
      match endAnswer sqlite (abortOf (body c).1) with
      | .done => ((body c).1, if abortOf (body c).1 then c else (body c).2)
      | .stillOpen status => (check status.1 sqlite.errmsg, c)
      | .rolledBack status => (check status.1 sqlite.errmsg, c)

/-- The code with every outermost block at once. -/
def serial : Block C → RubyM C Unit
  | skip => pure ()
  | write w status errmsg => writeOn w status errmsg
  | raise e => RubyM.lift (.raise e)
  | throw tag => RubyM.lift (.jump tag)
  | seq first second => do
      first.serial
      second.serial
  | rescue body handler => RubyM.rescueStandard body.serial handler.serial
  | ensure body clause => RubyM.ensure body.serial clause.serial
  | transaction sqlite mode body => atOnce sqlite (mode.getD defaultMode) body.inside

/-- How many statements the code inside a block comes to. -/
def statements : Block C → C → Nat
  | skip, _ => 0
  | write _ _ _, _ => 1
  | raise _, _ => 0
  | throw _, _ => 0
  | seq first second, c =>
      first.statements c +
        match first.inside c with
        | (.ok _, c) => second.statements c
        | _ => 0
  | rescue body handler, c =>
      body.statements c +
        if abortOf (body.inside c).1 then handler.statements (body.inside c).2 else 0
  | ensure body clause, c => body.statements c + clause.statements (body.inside c).2
  | transaction _ _ _, _ => 1

/-- The contents after each statement, with every outermost block at once: as long as it is not
over, the content is what it was before. -/
def moments : Block C → C → List C
  | skip, _ => []
  | write w status errmsg, c => [(writeOn w status errmsg c).2]
  | raise _, _ => []
  | throw _, _ => []
  | seq first second, c =>
      first.moments c ++
        match first.serial defaultMode c with
        | (.ok _, c) => second.moments c
        | _ => []
  | rescue body handler, c =>
      body.moments c ++
        if abortOf (body.serial defaultMode c).1 then
          handler.moments (body.serial defaultMode c).2
        else []
  | ensure body clause, c => body.moments c ++ clause.moments (body.serial defaultMode c).2
  | transaction sqlite mode body, c =>
      match sqlite.begin_ ("begin " ++ mode.getD defaultMode ++ " transaction") with
      | some _ => [c]
      | none =>
          c :: List.replicate (body.statements c) c ++
            [((transaction sqlite mode body).serial defaultMode c).2]

end Semantics

/-- SQLite ends a transaction when asked to, or rolls it back, and never rolls one back for a
write. -/
def Settles : Block C → Prop
  | skip => True
  | write w _ _ => ∀ c, ∃ c', w c = .done c' ∨ w c = .failed c'
  | raise _ => True
  | throw _ => True
  | seq first second => first.Settles ∧ second.Settles
  | rescue body handler => body.Settles ∧ handler.Settles
  | ensure body clause => body.Settles ∧ clause.Settles
  | transaction sqlite _ body =>
      (∀ abort, (endAnswer sqlite abort).isStillOpen = false) ∧ body.Settles

/-! ## Inside a block -/

section Inside

variable (defaultMode : String) (c₀ : C)

theorem execute_active {w : Write C} (hw : ∀ c, ∃ c', w c = .done c' ∨ w c = .failed c')
    (status : ErrorStatus) (errmsg : String) :
    RubyM.Simulates (fun c => (⟨c₀, some c⟩ : Connection C)) (execute w status errmsg)
      (writeOn w status errmsg) := by
  intro c
  have hview : (⟨c₀, some c⟩ : Connection C).view = c := rfl
  rw [execute, writeOn, hview]
  obtain ⟨c', h | h⟩ := hw c
  · rw [h]
    rfl
  · rw [h]
    rfl

/-- SQLite refuses the BEGIN of a block within a block. -/
theorem executeBegin_active (sqlite : Sqlite) (mode : String) (c : C) :
    executeBegin sqlite mode ⟨c₀, some c⟩ =
      (check sqliteError.1 sqlite.errmsg, ⟨c₀, some c⟩) := rfl

theorem transaction_active (sqlite : Sqlite) (mode : Option String) (body : DbM C Unit) :
    RubyM.Simulates (fun c => (⟨c₀, some c⟩ : Connection C))
      (Transaction.transaction sqlite defaultMode mode body)
      (RubyM.lift (check sqliteError.1 sqlite.errmsg)) := by
  intro c
  obtain ⟨e, he, -⟩ := check_errorStatus sqliteError sqlite.errmsg
  have hbegin := executeBegin_active c₀ sqlite (mode.getD defaultMode) c
  rw [he] at hbegin ⊢
  exact RubyM.bind_run_raise _ hbegin

/-- Code inside a block works on what the block reads. -/
theorem run_inside {p : Block C} (hp : p.Settles) :
    RubyM.Simulates (fun c => (⟨c₀, some c⟩ : Connection C)) (p.run defaultMode) p.inside := by
  induction p with
  | skip => exact RubyM.simulates_pure ()
  | write w status errmsg => exact execute_active c₀ hp status errmsg
  | raise e => exact RubyM.simulates_lift _
  | throw tag => exact RubyM.simulates_lift _
  | seq first second ihfirst ihsecond => exact (ihfirst hp.1).bind fun _ => ihsecond hp.2
  | rescue body handler ihbody ihhandler => exact (ihbody hp.1).rescueStandard (ihhandler hp.2)
  | ensure body clause ihbody ihclause => exact (ihbody hp.1).ensure (ihclause hp.2)
  | transaction sqlite mode body _ => exact transaction_active defaultMode c₀ sqlite mode _

/-- Inside a block, another connection goes on reading the content of the BEGIN. -/
theorem seen_inside {p : Block C} (hp : p.Settles) (c : C) :
    p.seen defaultMode ⟨c₀, some c⟩ = List.replicate (p.statements c) c₀ := by
  induction p generalizing c with
  | skip => rfl
  | write w status errmsg =>
      rw [seen, execute_active c₀ hp status errmsg c]
      rfl
  | raise e => rfl
  | throw tag => rfl
  | seq first second ihfirst ihsecond =>
      rw [seen, statements, ← List.replicate_append_replicate, ihfirst hp.1,
        run_inside defaultMode c₀ hp.1 c]
      rcases first.inside c with ⟨o, c'⟩
      cases o with
      | ok u => exact congrArg _ (ihsecond hp.2 c')
      | raise e => rfl
      | jump tag => rfl
  | rescue body handler ihbody ihhandler =>
      rw [seen, statements, ← List.replicate_append_replicate, ihbody hp.1,
        run_inside defaultMode c₀ hp.1 c]
      split
      · exact congrArg _ (ihhandler hp.2 _)
      · rfl
  | ensure body clause ihbody ihclause =>
      rw [seen, statements, ← List.replicate_append_replicate, ihbody hp.1,
        run_inside defaultMode c₀ hp.1 c]
      exact congrArg _ (ihclause hp.2 _)
  | transaction sqlite mode body _ =>
      obtain ⟨e, he, -⟩ := check_errorStatus sqliteError sqlite.errmsg
      rw [seen, executeBegin_active, he]
      rfl

end Inside

/-! ## Outside of blocks -/

section Outside

variable (defaultMode : String)

theorem execute_inactive {w : Write C} (hw : ∀ c, ∃ c', w c = .done c' ∨ w c = .failed c')
    (status : ErrorStatus) (errmsg : String) :
    RubyM.Simulates (fun c => (⟨c, none⟩ : Connection C)) (execute w status errmsg)
      (writeOn w status errmsg) := by
  intro c
  have hview : (⟨c, none⟩ : Connection C).view = c := rfl
  rw [execute, writeOn, hview]
  obtain ⟨c', h | h⟩ := hw c
  · rw [h]
    rfl
  · rw [h]
    rfl

/-- The end of a block that SQLite does not refuse. -/
theorem endTransaction_settled (sqlite : Sqlite) (abort : Bool) (c₀ c : C)
    (hsettles : (endAnswer sqlite abort).isStillOpen = false) :
    (endAnswer sqlite abort = .done ∧
        endTransaction sqlite abort ⟨c₀, some c⟩ = (.ok true, ⟨if abort then c₀ else c, none⟩)) ∨
      ∃ status e, endAnswer sqlite abort = .rolledBack status ∧
        check status.1 sqlite.errmsg = .raise e ∧
        endTransaction sqlite abort ⟨c₀, some c⟩ = (.raise e, ⟨c₀, none⟩) := by
  cases hanswer : endAnswer sqlite abort with
  | done =>
      have hdb : (⟨c₀, some c⟩ : Connection C).txn = some c := rfl
      refine Or.inl ⟨rfl, ?_⟩
      cases abort with
      | true => exact endTransaction_true sqlite (rollback_run_done sqlite hdb hanswer)
      | false => exact commit_run_done sqlite hdb hanswer
  | stillOpen status =>
      rw [hanswer] at hsettles
      cases hsettles
  | rolledBack status =>
      obtain ⟨e, he, -⟩ := check_errorStatus status sqlite.errmsg
      refine Or.inr ⟨status, e, rfl, he, ?_⟩
      have hfail : fail sqlite status (⟨c₀, none⟩ : Connection C) = (.raise e, ⟨c₀, none⟩) := by
        rw [fail, he]
      cases abort with
      | true =>
          have hrollback : sqlite.rollback = .rolledBack status := hanswer
          apply endTransaction_true_raise
          refine RubyM.bind_run_raise _ ?_
          simp only [hrollback]
          exact hfail
      | false =>
          have hcommit : sqlite.commit = .rolledBack status := hanswer
          rw [endTransaction_false]
          refine RubyM.bind_run_raise _ ?_
          simp only [hcommit]
          exact hfail

/-- An outermost block happens at once. -/
theorem transaction_inactive {sqlite : Sqlite} (mode : Option String) {body : DbM C Unit}
    {f : RubyM C Unit} (hsettles : ∀ abort, (endAnswer sqlite abort).isStillOpen = false)
    (hbody : ∀ c₀, RubyM.Simulates (fun c => (⟨c₀, some c⟩ : Connection C)) body f) :
    RubyM.Simulates (fun c => (⟨c, none⟩ : Connection C))
      (Transaction.transaction sqlite defaultMode mode body)
      (atOnce sqlite (mode.getD defaultMode) f) := by
  intro c
  rw [atOnce]
  cases hbegin : sqlite.begin_ ("begin " ++ mode.getD defaultMode ++ " transaction") with
  | some status =>
      obtain ⟨e, he, -⟩ := check_errorStatus status sqlite.errmsg
      have hrun : executeBegin sqlite (mode.getD defaultMode) (⟨c, none⟩ : Connection C) =
          (.raise e, ⟨c, none⟩) := by
        simp [executeBegin, Connection.transactionActive, hbegin, fail, he]
      simp only [he]
      exact RubyM.bind_run_raise _ hrun
  | none =>
      rw [transaction_run sqlite body c hbegin, hbody c c]
      rcases endTransaction_settled sqlite (abortOf (f c).1) c (f c).2 (hsettles _) with
        ⟨hdone, hend⟩ | ⟨status, e, hanswer, he, hend⟩
      · simp only [hdone, hend]
      · simp only [hanswer, hend, he]

/-- The code does what it does with every outermost block at once. -/
theorem run_serial {p : Block C} (hp : p.Settles) :
    RubyM.Simulates (fun c => (⟨c, none⟩ : Connection C)) (p.run defaultMode)
      (p.serial defaultMode) := by
  induction p with
  | skip => exact RubyM.simulates_pure ()
  | write w status errmsg => exact execute_inactive hp status errmsg
  | raise e => exact RubyM.simulates_lift _
  | throw tag => exact RubyM.simulates_lift _
  | seq first second ihfirst ihsecond => exact (ihfirst hp.1).bind fun _ => ihsecond hp.2
  | rescue body handler ihbody ihhandler => exact (ihbody hp.1).rescueStandard (ihhandler hp.2)
  | ensure body clause ihbody ihclause => exact (ihbody hp.1).ensure (ihclause hp.2)
  | transaction sqlite mode body _ =>
      exact transaction_inactive defaultMode mode hp.1 fun c₀ => run_inside defaultMode c₀ hp.2

/-- Another connection reads what it would read if every outermost block happened at once. -/
theorem seen_serial {p : Block C} (hp : p.Settles) (c : C) :
    p.seen defaultMode ⟨c, none⟩ = p.moments defaultMode c := by
  induction p generalizing c with
  | skip => rfl
  | write w status errmsg =>
      rw [seen, execute_inactive hp status errmsg c]
      rfl
  | raise e => rfl
  | throw tag => rfl
  | seq first second ihfirst ihsecond =>
      rw [seen, moments, ihfirst hp.1, run_serial defaultMode hp.1 c]
      rcases first.serial defaultMode c with ⟨o, c'⟩
      cases o with
      | ok u => exact congrArg _ (ihsecond hp.2 c')
      | raise e => rfl
      | jump tag => rfl
  | rescue body handler ihbody ihhandler =>
      rw [seen, moments, ihbody hp.1, run_serial defaultMode hp.1 c]
      split
      · exact congrArg _ (ihhandler hp.2 _)
      · rfl
  | ensure body clause ihbody ihclause =>
      rw [seen, moments, ihbody hp.1, run_serial defaultMode hp.1 c]
      exact congrArg _ (ihclause hp.2 _)
  | transaction sqlite mode body _ =>
      have hafter := run_serial defaultMode (p := transaction sqlite mode body) hp c
      rw [seen, moments, hafter]
      cases hbegin : sqlite.begin_ ("begin " ++ mode.getD defaultMode ++ " transaction") with
      | some status =>
          obtain ⟨e, he⟩ :=
            executeBegin_run_fail sqlite ⟨c, none⟩ (mode.getD defaultMode) rfl hbegin
          rw [he]
      | none =>
          rw [executeBegin_run_ok sqlite _ rfl hbegin]
          change c :: body.seen defaultMode ⟨c, some c⟩ ++ _ = _
          rw [seen_inside defaultMode c hp.2 c]

/-- A program with transaction blocks does what it does when its outermost blocks happen at
once, if SQLite settles every transaction that it is asked to end; and after each of its
statements another connection reads what it would read then, which is nothing of a block before
it is over. -/
theorem blocks_at_once {p : Block C} (hp : p.Settles) (c : C) :
    p.run defaultMode ⟨c, none⟩ =
        ((p.serial defaultMode c).1, ⟨(p.serial defaultMode c).2, none⟩) ∧
      p.seen defaultMode ⟨c, none⟩ = p.moments defaultMode c :=
  ⟨run_serial defaultMode hp c, seen_serial defaultMode hp c⟩

/-! ## What every block keeps -/

/-- Every write outside of blocks keeps `I`, and so does every outermost block as a whole. -/
def Maintains (I : C → Prop) : Block C → Prop
  | skip => True
  | write w status errmsg => ∀ c, I c → I (writeOn w status errmsg c).2
  | raise _ => True
  | throw _ => True
  | seq first second => first.Maintains I ∧ second.Maintains I
  | rescue body handler => body.Maintains I ∧ handler.Maintains I
  | ensure body clause => body.Maintains I ∧ clause.Maintains I
  | transaction sqlite mode body =>
      ∀ c, I c → I (atOnce sqlite (mode.getD defaultMode) body.inside c).2

theorem serial_maintains {I : C → Prop} {p : Block C} (hp : p.Maintains defaultMode I) {c : C}
    (hc : I c) :
    I (p.serial defaultMode c).2 ∧ ∀ x ∈ p.moments defaultMode c, I x := by
  induction p generalizing c with
  | skip => exact ⟨hc, fun x hx => by cases hx⟩
  | write w status errmsg =>
      refine ⟨hp c hc, fun x hx => ?_⟩
      rw [List.mem_singleton.mp hx]
      exact hp c hc
  | raise e => exact ⟨hc, fun x hx => by cases hx⟩
  | throw tag => exact ⟨hc, fun x hx => by cases hx⟩
  | seq first second ihfirst ihsecond =>
      obtain ⟨hafter, hseen⟩ := ihfirst hp.1 hc
      rw [serial, moments]
      rcases hfirst : first.serial defaultMode c with ⟨o, c'⟩
      rw [hfirst] at hafter
      cases o with
      | ok u =>
          rw [RubyM.bind_run_ok u _ hfirst]
          obtain ⟨hafter', hseen'⟩ := ihsecond hp.2 hafter
          exact ⟨hafter', List.forall_mem_append.mpr ⟨hseen, hseen'⟩⟩
      | raise e =>
          rw [RubyM.bind_run_raise _ hfirst]
          exact ⟨hafter, List.forall_mem_append.mpr ⟨hseen, by simp⟩⟩
      | jump tag =>
          rw [RubyM.bind_run_jump _ hfirst]
          exact ⟨hafter, List.forall_mem_append.mpr ⟨hseen, by simp⟩⟩
  | rescue body handler ihbody ihhandler =>
      obtain ⟨hafter, hseen⟩ := ihbody hp.1 hc
      obtain ⟨hafter', hseen'⟩ := ihhandler hp.2 hafter
      rw [serial, moments, RubyM.rescueStandard]
      split
      · exact ⟨hafter', List.forall_mem_append.mpr ⟨hseen, hseen'⟩⟩
      · exact ⟨hafter, List.forall_mem_append.mpr ⟨hseen, by simp⟩⟩
  | ensure body clause ihbody ihclause =>
      obtain ⟨hafter, hseen⟩ := ihbody hp.1 hc
      obtain ⟨hafter', hseen'⟩ := ihclause hp.2 hafter
      refine ⟨?_, List.forall_mem_append.mpr ⟨hseen, hseen'⟩⟩
      rw [serial, RubyM.ensure_snd]
      exact hafter'
  | transaction sqlite mode body _ =>
      refine ⟨hp c hc, fun x hx => ?_⟩
      rw [moments] at hx
      split at hx
      · rw [List.mem_singleton.mp hx]
        exact hc
      · rcases List.mem_append.mp hx with hx | hx
        · rcases List.mem_cons.mp hx with rfl | hx
          · exact hc
          · rw [List.eq_of_mem_replicate hx]
            exact hc
        · rw [List.mem_singleton.mp hx]
          exact hp c hc

/-- What every block keeps as a whole, no other connection ever reads broken, though it may be
broken within every block. -/
theorem invariant_never_seen_broken {I : C → Prop} {p : Block C} (hp : p.Settles)
    (hkeeps : p.Maintains defaultMode I) {c : C} (hc : I c) :
    (∀ x ∈ p.seen defaultMode ⟨c, none⟩, I x) ∧ I (p.run defaultMode ⟨c, none⟩).2.content := by
  obtain ⟨hafter, hseen⟩ := serial_maintains defaultMode hkeeps hc
  refine ⟨fun x hx => hseen x (seen_serial defaultMode hp c ▸ hx), ?_⟩
  rw [run_serial defaultMode hp c]
  exact hafter

end Outside

/-- Money that goes from one account to the other. -/
def debit : Write (Int × Int) := fun c => .done (c.1 - 1, c.2)

def credit : Write (Int × Int) := fun c => .done (c.1, c.2 + 1)

/-- A transfer in a block, with a block within it that is refused and rescued, and a transfer in
a block that raises in the middle. -/
def transfers : Block (Int × Int) :=
  seq
    (transaction willing none
      (seq (write debit sqliteError "")
        (seq (rescue (transaction willing none (write debit sqliteError "")) skip)
          (write credit sqliteError ""))))
    (rescue
      (transaction willing none
        (seq (write debit sqliteError "") (raise ⟨.ArgumentError, "no such account"⟩)))
      skip)

theorem transfers_settles : transfers.Settles := by
  have hanswer : ∀ abort, (endAnswer willing abort).isStillOpen = false := by decide
  have hdebit : ∀ c, ∃ c', debit c = .done c' ∨ debit c = .failed c' := fun c => ⟨_, .inl rfl⟩
  have hcredit : ∀ c, ∃ c', credit c = .done c' ∨ credit c = .failed c' := fun c => ⟨_, .inl rfl⟩
  exact ⟨⟨hanswer, hdebit, ⟨⟨hanswer, hdebit⟩, trivial⟩, hcredit⟩,
    ⟨hanswer, hdebit, trivial⟩, trivial⟩

theorem transfers_at_once :
    transfers.run "deferred" ⟨(5, 0), none⟩ = (.ok (), ⟨(4, 1), none⟩) ∧
      transfers.seen "deferred" ⟨(5, 0), none⟩ =
        [(5, 0), (5, 0), (5, 0), (5, 0), (4, 1), (4, 1), (4, 1), (4, 1)] :=
  blocks_at_once "deferred" transfers_settles (5, 0)

theorem transfers_sum_never_seen_broken :
    (∀ x ∈ transfers.seen "deferred" ⟨(5, 0), none⟩, x.1 + x.2 = 5) ∧
      (transfers.run "deferred" ⟨(5, 0), none⟩).2.content.1 +
        (transfers.run "deferred" ⟨(5, 0), none⟩).2.content.2 = 5 := by
  have hfirst : ∀ c : Int × Int, c.1 + c.2 = 5 → (c.1 - 1) + (c.2 + 1) = 5 := fun c hc => by omega
  have hkeeps : transfers.Maintains "deferred" fun c => c.1 + c.2 = 5 :=
    ⟨hfirst, fun _ hc => hc, trivial⟩
  exact invariant_never_seen_broken "deferred" transfers_settles hkeeps (c := (5, 0)) rfl

end Block

end Transaction

end Sqlite3Ruby
