import Sqlite3Ruby.Aggregator.Handlers

/-!
# Aggregates that are cloned from a template

`define_aggregator` makes a handler class whose instances keep a clone of the template in
`@klass` and hand `step` and `finalize` on to it. A clone is another object, but what its
fields refer to is shared.

## Implementation notes

A proxy stands for its `@klass`. The heap holds what can be reached from the templates;
the fields of an object are its instance variables, or its elements. They are marked with
the group whose callbacks wrote them last.
-/

namespace Sqlite3Ruby.Aggregator

open Objects

variable {κ : Type} [DecidableEq κ]

/-- An object with its methods. `clone` gives an object unless it raises. -/
structure Template (κ : Type) where
  object : Ref
  clone : Code κ Value (Outcome Empty) 1
  step : List Value → Code κ Value (Outcome Value) 1
  finalize : Code κ Value (Outcome Value) 1

/-- `Object#clone`. -/
def objectClone : Code κ Value (Outcome Empty) 1 := .copy 0 (.done (.ref 0))

/-- The templates of the aggregates and the objects, as `define_aggregator` finds them. -/
structure Definitions (κ : Type) where
  heap : Heap κ Value Context
  template : WrapperId → Template κ
  closed : heap.Closed
  object_lt : ∀ aw, (template aw).object < heap.next
  unwritten : ∀ r k, heap.writer r k = none

/-- What a method returns, an object included. -/
def methodResult : Field (Outcome Value) Ref → Outcome Value
  | .data o => o
  | .ref _ => .ok (.object "Object" (.raise ⟨.TypeError, "can't convert Object into Integer"⟩))

/-- A method of an object is called. -/
def invoke (ctx : Context) (code : Code κ Value (Outcome Value) 1) (self : Ref) :
    RubyM (Heap κ Value Context) Value := fun heap =>
  (methodResult (code.run ctx (fun _ => self) heap).1, (code.run ctx (fun _ => self) heap).2)

/-- `initialize` of the proxy. -/
def proxyNew (t : Template κ) (ctx : Context) :
    RubyM (Heap κ Value Context) HandlerId := fun heap =>
  (match (t.clone.run ctx (fun _ => t.object) heap).1 with
    | .ref r => .ok r
    | .data o => Empty.elim <$> o,
    (t.clone.run ctx (fun _ => t.object) heap).2)

/-! ## Queries -/

/-- The method that a callback calls. -/
def Template.method (t : Template κ) : Callback → Code κ Value (Outcome Value) 1
  | .step args => t.step (args.map sqlite3val2rb)
  | .final => t.finalize

namespace Definitions

variable (d : Definitions κ)

def start : World κ := ⟨initial, d.heap⟩

/-- The proxies of the templates. -/
def handlers : Handlers κ where
  new ctx := proxyNew (d.template ctx.aw) ctx
  method ctx handler c := invoke ctx ((d.template ctx.aw).method c) handler

/-- The handler of the group, which is made if the group is fresh. -/
abbrev handler := d.handlers.handler

/-- One callback of SQLite. -/
abbrev callback := d.handlers.callback

end Definitions

/-! ## A group by itself -/

/-- `step` for each row. -/
def Template.stepEach (t : Template κ) (ctx : Context) :
    List (List SqliteValue) → RubyM (Heap κ Value Context) Unit
  | [] => pure ()
  | row :: rows => do
      let _ ← invoke ctx (t.method (.step row)) t.object
      t.stepEach ctx rows

/-- `step` for each row and then `finalize`, on the template itself. -/
def Template.aggregate (t : Template κ) (ctx : Context) (rows : List (List SqliteValue)) :
    RubyM (Heap κ Value Context) Value := do
  t.stepEach ctx rows
  invoke ctx (t.method .final) t.object

/-- The result that is posted for what a group comes to, if it can be posted. -/
def posts (long : SizeofLong) : Outcome Value → List FuncResult
  | .ok result =>
      match setSqlite3FuncResult long result with
      | .ok call => [.value call]
      | _ => []
  | _ => [.error "Ruby Exception occurred"]

/-- A field that was not written since the definition, or last by the group. -/
def own (ctx : Context) (writer : Option Context) : Prop := writer = none ∨ writer = some ctx

/-- The clone looks like the template, with all that it refers to. -/
def Definitions.Copies (d : Definitions κ) (ctx : Context) : Prop :=
  let t := d.template ctx.aw
  ∃ r R, (t.clone.run ctx (fun _ => t.object) d.heap).1 = .ref r ∧ R r t.object ∧
    Similar (fun _ => True) R (t.clone.run ctx (fun _ => t.object) d.heap).2 d.heap

/-- The callback of the group reads no field that another group has written last. -/
def Definitions.ReadsOwn (d : Definitions κ) (w : World κ) (ctx : Context) (c : Callback) : Prop :=
  let t := d.template ctx.aw
  (w.sys.group ctx = .fresh → t.clone.Reads (own ctx) ctx (fun _ => t.object) w.heap) ∧
    ∀ handler heap, d.handler w ctx = (.ok handler, heap) →
      (t.method c).Reads (own ctx) ctx (fun _ => handler) heap

/-! ## The handler -/

section Group

variable {d : Definitions κ} {w : World κ} {ctx : Context} {heap : Heap κ Value Context}

/-- How far the group is: the heap of the fold over its rows, or none if something
raised. -/
inductive Stands (d : Definitions κ) (w : World κ) (ctx : Context) :
    Option (Heap κ Value Context) → Prop
  | fresh (hgroup : w.sys.group ctx = .fresh)
      (hsim : Similar (own ctx) (fun r s => r = s ∧ r < d.heap.next) w.heap d.heap) :
      Stands d w ctx (some d.heap)
  | serving {r : Ref} {R : Ref → Ref → Prop} {heap : Heap κ Value Context}
      (hgroup : w.sys.group ctx = .serving r) (hsim : Similar (own ctx) R w.heap heap)
      (hself : R r (d.template ctx.aw).object) : Stands d w ctx (some heap)
  | failed (hgroup : w.sys.group ctx = .failed) : Stands d w ctx none

/-- A group that goes on finds a handler that looks like the template. -/
theorem Stands.handler (h : Stands d w ctx (some heap)) (hcopies : d.Copies ctx)
    (hreads : w.sys.group ctx = .fresh → (d.template ctx.aw).clone.Reads (own ctx) ctx
      (fun _ => (d.template ctx.aw).object) w.heap) :
    ∃ r R heap', d.handler w ctx = (.ok r, heap') ∧ R r (d.template ctx.aw).object ∧
      Similar (own ctx) R heap' heap := by
  cases h with
  | serving hgroup hsim hself =>
      refine ⟨_, _, w.heap, ?_, hself, hsim⟩
      rw [Definitions.handler, Handlers.handler, hgroup]
  | fresh hgroup hsim =>
      obtain ⟨s, S, hs, hobject, hcopy⟩ := hcopies
      obtain ⟨R, -, hclone, hresult⟩ := hsim.run ctx ctx (d.template ctx.aw).clone
        (fun _ => ⟨rfl, d.object_lt ctx.aw⟩) (hreads hgroup)
      rw [hs] at hresult
      generalize hr : ((d.template ctx.aw).clone.run ctx
        (fun _ => (d.template ctx.aw).object) w.heap).1 = f at hresult
      cases hresult with
      | ref hrs =>
          refine ⟨_, _, _, ?_, ⟨s, hrs, hobject⟩, hclone.comp hcopy⟩
          rw [Definitions.handler, Handlers.handler, hgroup]
          simp only [Definitions.handlers, proxyNew, hr]

/-- Methods return the same on objects that look alike. -/
theorem invoke_similar {R : Ref → Ref → Prop} {a : Heap κ Value Context}
    (hsim : Similar (own ctx) R heap a) {r s : Ref} (hrs : R r s)
    (code : Code κ Value (Outcome Value) 1) (hreads : code.Reads (own ctx) ctx (fun _ => r) heap) :
    (invoke ctx code r heap).1 = (invoke ctx code s a).1 ∧
      ∃ R' : Ref → Ref → Prop, R' r s ∧
        Similar (own ctx) R' (invoke ctx code r heap).2 (invoke ctx code s a).2 := by
  obtain ⟨R', hle, hrun, hresult⟩ := hsim.run ctx ctx code (fun _ => hrs) hreads
  refine ⟨?_, R', hle _ _ hrs, hrun⟩
  rw [invoke, invoke]
  generalize (code.run ctx (fun _ => r) heap).1 = f at hresult
  generalize (code.run ctx (fun _ => s) a).1 = f' at hresult
  cases hresult <;> rfl

/-- What the callbacks of another group do to the objects is not seen. -/
theorem respond_left {R : Ref → Ref → Prop} (hsim : Similar (own ctx) R w.heap heap)
    {ctx' : Context} (hne : ctx' ≠ ctx) (c : Callback) :
    Similar (own ctx) R (d.handlers.respond w ctx' c).2 heap := by
  have hown : ¬ own ctx (some ctx') := by
    rintro (h | h)
    · cases h
    · exact hne (Option.some.inj h)
  have hhandler : Similar (own ctx) R (d.handler w ctx').2 heap := by
    rw [Definitions.handler, Handlers.handler]
    cases w.sys.group ctx' with
    | fresh => exact hsim.run_left hown _ _
    | serving handler => exact hsim
    | failed => exact hsim
    | done => exact hsim
  rcases hresult : d.handler w ctx' with ⟨new, heap'⟩
  rw [hresult] at hhandler
  by_cases hreturns : new.Returns
  · obtain ⟨r, rfl⟩ := hreturns
    rw [Handlers.respond_of_handler hresult]
    exact hhandler.run_left hown _ _
  · rw [Handlers.respond_of_fails hresult hreturns]
    exact hhandler

/-! ## One callback -/

/-- The callbacks of another group leave a group where it is. -/
theorem Stands.of_ne {long : SizeofLong} {w' : World κ} {ctx' : Context} {c : Callback}
    {fold : Option (Heap κ Value Context)} (hinv : Inv w.sys) (hne : ctx' ≠ ctx)
    (h : d.callback long w (ctx', c) = some w') (hstands : Stands d w ctx fold) :
    Stands d w' ctx fold := by
  obtain ⟨-, hheap, -, -, hothers⟩ := Handlers.callback_run hinv h
  have hsame := hothers ctx hne.symm
  cases hstands with
  | fresh hgroup hsim => exact .fresh (hsame.trans hgroup) (hheap ▸ respond_left hsim hne c)
  | serving hgroup hsim hself =>
      exact .serving (hsame.trans hgroup) (hheap ▸ respond_left hsim hne c) hself
  | failed hgroup => exact .failed (hsame.trans hgroup)

/-- A callback of a group that goes on. -/
theorem Stands.callback {long : SizeofLong} {w' : World κ} {c : Callback} (hinv : Inv w.sys)
    (hstands : Stands d w ctx (some heap)) (hcopies : d.Copies ctx)
    (hreads : d.ReadsOwn w ctx c) (h : d.callback long w (ctx, c) = some w') :
    let fold := invoke ctx ((d.template ctx.aw).method c) (d.template ctx.aw).object heap
    ofContext ctx w'.sys.mem.posted = ofContext ctx w.sys.mem.posted ++
        (match c with
          | .step _ => []
          | .final => posts long fold.1) ∧
      ∀ row, c = .step row → Stands d w' ctx (if fold.1.Returns then some fold.2 else none) := by
  intro fold
  obtain ⟨r, R, heap', hhandler, hself, hsim⟩ := hstands.handler hcopies hreads.1
  obtain ⟨hsame, R', hself', hsim'⟩ := invoke_similar hsim hself _ (hreads.2 r heap' hhandler)
  obtain ⟨-, hheap, hposted, hnext, -⟩ := Handlers.callback_run hinv h
  have hrespond : d.handlers.respond w ctx c = (c.event (.ok r) fold.1,
      (invoke ctx ((d.template ctx.aw).method c) r heap').2) := by
    rw [Handlers.respond_of_handler hhandler]
    simp only [Definitions.handlers, hsame, fold]
  have hstart := Handlers.start_of_handler hhandler c fold.1
  rw [hrespond] at hheap hposted hnext
  rw [Group.posts, hstart] at hposted
  rw [Group.next, hstart] at hnext
  rw [hposted, ofContext_append, ofContext_self]
  cases c with
  | step row =>
      refine ⟨rfl, fun _ _ => ?_⟩
      by_cases hreturns : fold.1.Returns
      · rw [if_pos hreturns]
        refine .serving (r := r) (R := R') ?_ (hheap ▸ hsim') hself'
        exact hnext.trans (if_pos hreturns)
      · rw [if_neg hreturns]
        exact .failed (hnext.trans (if_neg hreturns))
  | final =>
      refine ⟨congrArg _ ?_, fun row hrow => by cases hrow⟩
      cases fold.1 <;> rfl

/-- A callback of a group in which something raised. -/
theorem Stands.callback_failed {long : SizeofLong} {w' : World κ} {c : Callback} (hinv : Inv w.sys)
    (hstands : Stands d w ctx none) (h : d.callback long w (ctx, c) = some w') :
    ofContext ctx w'.sys.mem.posted = ofContext ctx w.sys.mem.posted ++
        (match c with
          | .step _ => []
          | .final => [.error "Ruby Exception occurred"]) ∧
      ∀ row, c = .step row → Stands d w' ctx none := by
  obtain ⟨-, -, hposted, hnext, -⟩ := Handlers.callback_run hinv h
  cases hstands with
  | failed hgroup =>
      have hrespond : (d.handlers.respond w ctx c).1 =
          c.event (.jump "no handler") (.jump "not called") := by
        simp only [Handlers.respond, Handlers.handler, hgroup]
      rw [hrespond, hgroup] at hposted hnext
      rw [hposted, ofContext_append, ofContext_self]
      cases c with
      | step row => exact ⟨rfl, fun _ _ => .failed hnext⟩
      | final => exact ⟨rfl, fun row hrow => by cases hrow⟩

/-! ## Runs -/

/-- The result of a group with these rows still to come. -/
def expected (d : Definitions κ) (ctx : Context) (long : SizeofLong)
    (fold : Option (Heap κ Value Context)) (rows : List (List SqliteValue)) : List FuncResult :=
  match fold with
  | some heap => posts long ((d.template ctx.aw).aggregate ctx rows heap).1
  | none => [.error "Ruby Exception occurred"]

theorem expected_cons (long : SizeofLong) (row : List SqliteValue)
    (rows : List (List SqliteValue)) :
    let fold := invoke ctx ((d.template ctx.aw).method (.step row)) (d.template ctx.aw).object heap
    expected d ctx long (some heap) (row :: rows) =
      expected d ctx long (if fold.1.Returns then some fold.2 else none) rows := by
  intro fold
  have hrun : invoke ctx ((d.template ctx.aw).method (.step row)) (d.template ctx.aw).object heap =
      (fold.1, fold.2) := rfl
  rw [expected, Template.aggregate, Template.stepEach, RubyM.bind_assoc]
  cases hfold : fold.1 with
  | ok result =>
      rw [hfold] at hrun
      rw [RubyM.bind_run_ok result _ hrun, if_pos (Outcome.returns_ok result)]
      rfl
  | raise e =>
      rw [hfold] at hrun
      rw [RubyM.bind_run_raise _ hrun, if_neg (Outcome.not_returns_raise e)]
      rfl
  | jump tag =>
      rw [hfold] at hrun
      rw [RubyM.bind_run_jump _ hrun, if_neg (Outcome.not_returns_jump tag)]
      rfl

theorem Stands.step {long : SizeofLong} {w' : World κ} {row : List SqliteValue}
    {fold : Option (Heap κ Value Context)} (hinv : Inv w.sys) (hstands : Stands d w ctx fold)
    (hcopies : d.Copies ctx) (hreads : d.ReadsOwn w ctx (.step row))
    (h : d.callback long w (ctx, .step row) = some w') :
    ofContext ctx w'.sys.mem.posted = ofContext ctx w.sys.mem.posted ∧
      ∃ fold', Stands d w' ctx fold' ∧
        ∀ rows, expected d ctx long fold (row :: rows) = expected d ctx long fold' rows := by
  cases fold with
  | some heap =>
      obtain ⟨hposted, hnext⟩ := hstands.callback hinv hcopies hreads h
      rw [List.append_nil] at hposted
      exact ⟨hposted, _, hnext row rfl, fun rows => expected_cons long row rows⟩
  | none =>
      obtain ⟨hposted, hnext⟩ := hstands.callback_failed hinv h
      rw [List.append_nil] at hposted
      exact ⟨hposted, none, hnext row rfl, fun _ => rfl⟩

theorem Stands.final {long : SizeofLong} {w' : World κ} {fold : Option (Heap κ Value Context)}
    (hinv : Inv w.sys) (hstands : Stands d w ctx fold) (hcopies : d.Copies ctx)
    (hreads : d.ReadsOwn w ctx .final) (h : d.callback long w (ctx, .final) = some w') :
    ofContext ctx w'.sys.mem.posted =
      ofContext ctx w.sys.mem.posted ++ expected d ctx long fold [] := by
  cases fold with
  | some heap => exact (hstands.callback hinv hcopies hreads h).1
  | none => exact (hstands.callback_failed hinv h).1

/-- The fold over the rows of a group goes with it. -/
theorem follows (d : Definitions κ) (long : SizeofLong) {ctx : Context} (hcopies : d.Copies ctx) :
    d.handlers.Follows long ctx (fun w => Inv w.sys) (fun w a => d.ReadsOwn w a.1 a.2)
      (fun w => Stands d w ctx) (expected d ctx long) where
  inv _ hinv := hinv
  sound _ _ _ hinv h := (Handlers.callback_run hinv h).1
  other _ _ _ _ _ hinv hne h hstands := hstands.of_ne hinv hne h
  step _ _ _ _ hinv hreads h hstands := hstands.step hinv hcopies hreads h
  final _ _ _ hinv hreads h hstands := hstands.final hinv hcopies hreads h

omit [DecidableEq κ] in
theorem stands_start (d : Definitions κ) (ctx : Context) :
    Stands d d.start ctx (some d.heap) := .fresh rfl (.refl _ d.closed)

/-- A group gives the result of `step` for its own rows alone and of `finalize`, from the
template as it was defined, in every run in which its callbacks read no field that another
group has written last. -/
theorem group_result (long : SizeofLong) (d : Definitions κ) (calls : List (Context × Callback))
    (u : World κ) (hrun : StepSystem.exec (d.callback long) d.start calls = some u) (ctx : Context)
    (hcopies : d.Copies ctx)
    (hreads : StepSystem.AlwaysStep (d.callback long)
      (fun w a => a.1 = ctx → d.ReadsOwn w a.1 a.2) d.start calls)
    (rows : List (List SqliteValue)) (hrows : ofContext ctx calls = rows.map .step ++ [.final]) :
    ofContext ctx u.sys.mem.posted =
      posts long ((d.template ctx.aw).aggregate ctx rows d.heap).1 :=
  (follows d long hcopies).run inv_initial (stands_start d ctx) hrun hreads hrows

/-- Ruby's own `clone` makes a copy of a template to which nothing leads back. -/
theorem copies_of_objectClone (hclone : (d.template ctx.aw).clone = objectClone)
    (hback : ¬ Relation.TransGen d.heap.Refers (d.template ctx.aw).object
      (d.template ctx.aw).object) : d.Copies ctx := by
  have hobject := d.object_lt ctx.aw
  have hcopy := copy_similar d.heap ctx d.closed hobject hback
  rw [Definitions.Copies, hclone]
  exact ⟨_, _, rfl, .inr ⟨rfl, rfl⟩, hcopy⟩

end Group

/-! ## Sums -/

/-- An instance variable, or the first element of an Array. -/
inductive Key
  | sum
  | first
  deriving DecidableEq

/-- `+` of Integers. -/
def plus : Value → List Value → Value
  | .integer m, [.integer n] => .integer (m + n)
  | v, _ => v

/-- `+=` on a field. -/
def addTo {n : ℕ} (x : Fin n) (k : Key) (args : List Value) : Code Key Value (Outcome Value) n :=
  .get x k (fun v => .set x k (.data (plus v args)) (.done (.data (.ok .nil))))
    (.done (.data (.ok .nil)))

/-- The value of a field. -/
def fieldOf {n : ℕ} (x : Fin n) (k : Key) : Code Key Value (Outcome Value) n :=
  .get x k (fun v => .done (.data (.ok v))) (.done (.data (.ok .nil)))

/-- `@sum = 0`, which `step` adds to. -/
def integerSum : Definitions Key where
  heap := ⟨fun _ _ => .data (.integer 0), fun _ _ => none, 1⟩
  template _ := ⟨0, objectClone, addTo 0 .sum, fieldOf 0 .sum⟩
  closed _ _ _ _ h := by cases h
  object_lt _ := Nat.one_pos
  unwritten _ _ := rfl

/-- `@sum = [0]`, to whose element `step` adds. -/
def arraySum : Definitions Key where
  heap := ⟨fun r k => if r = 0 ∧ k = .sum then .ref 1 else .data (.integer 0), fun _ _ => none, 2⟩
  template _ := ⟨0, objectClone,
    fun args => .get 0 .sum (fun _ => .done (.data (.ok .nil))) (addTo 0 .first args),
    .get 0 .sum (fun _ => .done (.data (.ok .nil))) (fieldOf 0 .first)⟩
  closed r k s _ h := by
    dsimp only at h
    split at h
    · cases h
      decide
    · cases h
  object_lt _ := Nat.two_pos
  unwritten _ _ := rfl

/-- Two groups in turn. -/
def inTurn : List (Context × Callback) :=
  [(⟨0, 0⟩, .step [.integer 1]), (⟨0, 1⟩, .step [.integer 2]), (⟨0, 0⟩, .final), (⟨0, 1⟩, .final)]

/-- Two groups, one after the other. -/
def inSuccession : List (Context × Callback) :=
  [(⟨0, 0⟩, .step [.integer 1]), (⟨0, 0⟩, .final), (⟨0, 1⟩, .step [.integer 2]), (⟨0, 1⟩, .final)]

theorem integerSum_inTurn :
    ∃ u, StepSystem.exec (integerSum.callback .eight) integerSum.start inTurn = some u ∧
      ofContext ⟨0, 0⟩ u.sys.mem.posted = [.value (.int64 1)] := by
  have hrun : ∃ u, StepSystem.exec (integerSum.callback .eight) integerSum.start inTurn = some u :=
    ⟨_, rfl⟩
  obtain ⟨u, hu⟩ := hrun
  have hcopies : integerSum.Copies ⟨0, 0⟩ := by
    refine copies_of_objectClone rfl fun hback => ?_
    obtain ⟨r, -, k, hk⟩ := Relation.TransGen.tail'_iff.mp hback
    cases hk
  refine ⟨u, hu, group_result .eight integerSum inTurn u hu ⟨0, 0⟩ hcopies ?_ [[.integer 1]] rfl⟩
  rintro w₁ ⟨⟩
  refine ⟨fun _ => ⟨fun _ => ⟨fun _ => .inl rfl, trivial⟩, ?_⟩, ?_⟩
  · rintro handler heap ⟨⟩
    exact ⟨.inr rfl, trivial⟩
  rintro w₂ ⟨⟩
  refine ⟨fun h => absurd h (by decide), ?_⟩
  rintro w₃ ⟨⟩
  refine ⟨fun _ => ⟨(fun hfresh => by cases hfresh), ?_⟩, ?_⟩
  · rintro handler heap ⟨⟩
    exact ⟨.inr rfl, trivial⟩
  rintro w₄ ⟨⟩
  exact ⟨fun h => absurd h (by decide), trivial⟩

/-- What the first group has added is there for the second. -/
theorem arraySum_inSuccession :
    ¬ ∀ u, StepSystem.exec (arraySum.callback .eight) arraySum.start inSuccession = some u →
      ofContext ⟨0, 1⟩ u.sys.mem.posted =
        posts .eight ((arraySum.template 0).aggregate ⟨0, 1⟩ [[.integer 2]] arraySum.heap).1 := by
  intro h
  have hposted : [FuncResult.value (.int64 3)] = [.value (.int64 2)] := h _ rfl
  exact absurd hposted (by decide)

end Sqlite3Ruby.Aggregator
