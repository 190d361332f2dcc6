import Sqlite3Ruby.Aggregator.Runs
import Sqlite3Ruby.Lib.Objects

/-!
# Handlers of groups

Ruby code makes a handler for a group and gets its callbacks. Between two callbacks of a group
come those of others, on the same objects.
-/

namespace Sqlite3Ruby.Aggregator

open Objects

/-- A callback of SQLite. -/
inductive Callback
  | step (args : List SqliteValue)
  | final

/-- The callback, with what the user's code does. -/
def Callback.event (c : Callback) (new : Outcome HandlerId) (method : Outcome Value) : GroupEvent :=
  match c with
  | .step args => .step args new method
  | .final => .final new method

/-- The contexts, and the objects of Ruby. -/
structure World (κ : Type) where
  sys : System
  heap : Heap κ Value Context

/-- `new` of the handler class, and its methods. -/
structure Handlers (κ : Type) where
  new (ctx : Context) : RubyM (Heap κ Value Context) HandlerId
  method (ctx : Context) (handler : HandlerId) (c : Callback) : RubyM (Heap κ Value Context) Value

namespace Handlers

variable {κ : Type} (h : Handlers κ)

/-- The handler of the group, which is made if the group is fresh. -/
def handler (w : World κ) (ctx : Context) : Outcome HandlerId × Heap κ Value Context :=
  match w.sys.group ctx with
  | .fresh => h.new ctx w.heap
  | .serving handler => (.ok handler, w.heap)
  | .failed | .done => (.jump "no handler", w.heap)

/-- The user's code in a callback. -/
def respond (w : World κ) (ctx : Context) (c : Callback) : GroupEvent × Heap κ Value Context :=
  match h.handler w ctx with
  | (.ok handler, heap) =>
      let method := h.method ctx handler c heap
      (c.event (.ok handler) method.1, method.2)
  | (new, heap) => (c.event new (.jump "not called"), heap)

/-- One callback of SQLite. -/
def callback (long : SizeofLong) (w : World κ) (a : Context × Callback) : Option (World κ) :=
  (step long w.sys (a.1, (h.respond w a.1 a.2).1)).map fun sys => ⟨sys, (h.respond w a.1 a.2).2⟩

variable {h} {w w' : World κ} {ctx ctx' : Context} {long : SizeofLong} {c : Callback}

/-! ## One callback -/

theorem respond_of_handler {r : HandlerId} {heap : Heap κ Value Context}
    (hhandler : h.handler w ctx = (.ok r, heap)) (c : Callback) :
    h.respond w ctx c =
      (c.event (.ok r) (h.method ctx r c heap).1, (h.method ctx r c heap).2) := by
  rw [respond, hhandler]

theorem respond_of_fails {new : Outcome HandlerId} {heap : Heap κ Value Context}
    (hhandler : h.handler w ctx = (new, heap)) (hfails : ¬ new.Returns) (c : Callback) :
    h.respond w ctx c = (c.event new (.jump "not called"), heap) := by
  cases new with
  | ok r => exact absurd (Outcome.returns_ok r) hfails
  | raise e => rw [respond, hhandler]
  | jump tag => rw [respond, hhandler]

/-- The handler in a callback is the one that the group goes on with. -/
theorem start_of_handler {r : HandlerId} {heap : Heap κ Value Context}
    (hhandler : h.handler w ctx = (.ok r, heap)) (c : Callback) (method : Outcome Value) :
    (w.sys.group ctx).start (c.event (.ok r) method) = .serving r := by
  rw [handler] at hhandler
  cases hgroup : w.sys.group ctx with
  | fresh => cases c <;> rfl
  | serving handler =>
      simp only [hgroup, Prod.mk.injEq, Outcome.ok.injEq] at hhandler
      rw [hhandler.1]
      rfl
  | failed => simp [hgroup] at hhandler
  | done => simp [hgroup] at hhandler

/-- A callback is one of the C code, with what the user's code does. -/
theorem callback_run (hinv : Inv w.sys) (hcall : h.callback long w (ctx, c) = some w') :
    Inv w'.sys ∧ w'.heap = (h.respond w ctx c).2 ∧
      w'.sys.mem.posted = w.sys.mem.posted ++
        ((w.sys.group ctx).posts long (h.respond w ctx c).1).map (ctx, ·) ∧
      w'.sys.group ctx = (w.sys.group ctx).next (h.respond w ctx c).1 ∧
      ∀ ctx', ctx' ≠ ctx → w'.sys.group ctx' = w.sys.group ctx' := by
  obtain ⟨sys, hsys, rfl⟩ := Option.map_eq_some_iff.mp hcall
  obtain ⟨hfinished, hserves, hself, hothers, hinv'⟩ := step_serves hinv hsys
  have hgroup : w.sys.group ctx = w.sys.mem.group ctx := by simp [System.group, hfinished]
  refine ⟨hinv', rfl, ?_, hself, hothers⟩
  rw [hgroup]
  exact hserves.posted

/-- The callback of another group posts nothing for a group. -/
theorem posted_of_ne (hinv : Inv w.sys) (hne : ctx' ≠ ctx)
    (hcall : h.callback long w (ctx', c) = some w') :
    ofContext ctx w'.sys.mem.posted = ofContext ctx w.sys.mem.posted := by
  obtain ⟨-, -, hposted, -, -⟩ := callback_run hinv hcall
  rw [hposted, ofContext_append, ofContext_of_ne hne, List.append_nil]

/-! ## Runs -/

/-- Nothing is posted for a group that gets no callback. -/
theorem posted_of_other {u : World κ} {calls : List (Context × Callback)} (hinv : Inv w.sys)
    (hrun : StepSystem.exec (h.callback long) w calls = some u)
    (hnone : ofContext ctx calls = []) :
    ofContext ctx u.sys.mem.posted = ofContext ctx w.sys.mem.posted := by
  induction calls generalizing w with
  | nil =>
      obtain rfl : w = u := Option.some.inj hrun
      rfl
  | cons call calls ih =>
      obtain ⟨ctx', c⟩ := call
      obtain ⟨v, hv, hrest⟩ := (StepSystem.exec_cons_eq_some _).mp hrun
      have hne : ctx' ≠ ctx := by
        rintro rfl
        rw [ofContext_cons_self] at hnone
        cases hnone
      rw [ofContext_cons_of_ne hne] at hnone
      rw [ih (callback_run hinv hv).1 hrest hnone, posted_of_ne hinv hne hv]

/-- A group in a run goes the way that `expected` gives for its own rows: the state of the group by
itself is `σ`, callbacks of others leave it, and its own take it on. -/
structure Follows {σ : Type} (h : Handlers κ) (long : SizeofLong) (ctx : Context)
    (Sound : World κ → Prop) (Allowed : World κ → Context × Callback → Prop)
    (Stands : World κ → σ → Prop) (expected : σ → List (List SqliteValue) → List FuncResult) :
    Prop where
  inv : ∀ w, Sound w → Inv w.sys
  sound : ∀ w w' a, Sound w → h.callback long w a = some w' → Sound w'
  other : ∀ w w' ctx' c solo, Sound w → ctx' ≠ ctx → h.callback long w (ctx', c) = some w' →
    Stands w solo → Stands w' solo
  step : ∀ w w' row solo, Sound w → Allowed w (ctx, .step row) →
    h.callback long w (ctx, .step row) = some w' → Stands w solo →
    ofContext ctx w'.sys.mem.posted = ofContext ctx w.sys.mem.posted ∧
      ∃ solo', Stands w' solo' ∧ ∀ rows, expected solo (row :: rows) = expected solo' rows
  final : ∀ w w' solo, Sound w → Allowed w (ctx, .final) →
    h.callback long w (ctx, .final) = some w' → Stands w solo →
    ofContext ctx w'.sys.mem.posted = ofContext ctx w.sys.mem.posted ++ expected solo []

/-- A group comes to what its own rows ask for. -/
theorem Follows.run {σ : Type} {Sound : World κ → Prop}
    {Allowed : World κ → Context × Callback → Prop} {Stands : World κ → σ → Prop}
    {expected : σ → List (List SqliteValue) → List FuncResult}
    (hfollows : Follows h long ctx Sound Allowed Stands expected) {u : World κ}
    {calls : List (Context × Callback)} {solo : σ} {rows : List (List SqliteValue)}
    (hsound : Sound w) (hstands : Stands w solo)
    (hrun : StepSystem.exec (h.callback long) w calls = some u)
    (hallowed : StepSystem.AlwaysStep (h.callback long) (fun w a => a.1 = ctx → Allowed w a) w
      calls)
    (hrows : ofContext ctx calls = rows.map .step ++ [.final]) :
    ofContext ctx u.sys.mem.posted =
      ofContext ctx w.sys.mem.posted ++ expected solo rows := by
  induction calls generalizing w solo rows with
  | nil => cases rows <;> cases hrows
  | cons call calls ih =>
      obtain ⟨ctx', c⟩ := call
      obtain ⟨v, hv, hrest⟩ := (StepSystem.exec_cons_eq_some _).mp hrun
      obtain ⟨hallow, hallowed'⟩ := hallowed v hv
      have hsound' := hfollows.sound _ _ _ hsound hv
      by_cases hctx : ctx' = ctx
      · subst hctx
        rw [ofContext_cons_self] at hrows
        cases rows with
        | nil =>
            obtain ⟨rfl, htail⟩ := List.cons.inj hrows
            rw [posted_of_other (hfollows.inv _ hsound') hrest htail]
            exact hfollows.final _ _ _ hsound (hallow rfl) hv hstands
        | cons row rows =>
            obtain ⟨rfl, htail⟩ := List.cons.inj hrows
            obtain ⟨hposted, solo', hstands', hexpected⟩ :=
              hfollows.step _ _ _ _ hsound (hallow rfl) hv hstands
            rw [ih hsound' hstands' hrest hallowed' htail, hposted, hexpected]
      · rw [ofContext_cons_of_ne hctx] at hrows
        rw [ih hsound' (hfollows.other _ _ _ _ _ hsound hctx hv hstands) hrest hallowed' hrows,
          posted_of_ne (hfollows.inv _ hsound) hctx hv]

end Handlers

end Sqlite3Ruby.Aggregator
