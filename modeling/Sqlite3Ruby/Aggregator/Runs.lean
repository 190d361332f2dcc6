import Sqlite3Ruby.Aggregator.Callbacks
import Sqlite3Ruby.Lib.StepSystem

/-!
# Any number of aggregate contexts

SQLite interleaves the callbacks of its contexts as it likes; a context gets no
callback after its `xFinal`. Each group is served as if it were alone.

## Implementation notes

The list of the live contexts is kept beside the memory, from the callbacks
alone, so that the registry can be compared with it.
-/

namespace Sqlite3Ruby.Aggregator

/-- A callback of SQLite. -/
def callback (long : SizeofLong) (ctx : Context) : GroupEvent → AggregatorM Unit
  | .step args new step => aggregatorStep ctx args new step
  | .final new finalize => aggregatorFinal long ctx new finalize

/-- The memory, with the contexts whose `xFinal` has been called and those that
have started and still wait for it, in the order they started. -/
structure System where
  mem : State
  finished : Context → Bool
  live : List Context

/-- The contexts that have started once `ctx` has. -/
def startedWith (live : List Context) (ctx : Context) : List Context :=
  if ctx ∈ live then live else live ++ [ctx]

/-- One callback. SQLite makes none in a context after its `xFinal`. -/
def step (long : SizeofLong) (s : System) (a : Context × GroupEvent) : Option System :=
  if s.finished a.1 then none
  else
    some {
      mem := (callback long a.1 a.2 s.mem).2
      finished := Function.update s.finished a.1 a.2.isFinal
      live :=
        if a.2.isFinal then (startedWith s.live a.1).filter (· ≠ a.1)
        else startedWith s.live a.1 }

/-- Before the first query. -/
def initial : System :=
  ⟨⟨fun _ => [], fun _ => ⟨none, 0⟩, 0, fun _ => .qfalse, [], []⟩, fun _ => false, []⟩

structure Inv (s : System) : Prop where
  mem : MemInv s.mem
  slot : ∀ ctx, s.finished ctx = false → (s.mem.slot ctx).isLive = true
  mem_live : ∀ ctx, ctx ∈ s.live ↔ s.finished ctx = false ∧ s.mem.slot ctx ≠ .qfalse

theorem inv_initial : Inv initial := by
  refine ⟨⟨?_, ?_, ?_, ?_⟩, ?_, ?_⟩ <;> simp [initial, Slot.isLive]

/-- A started context is a live one that is not finished by the callback. -/
theorem mem_live_step (live : List Context) (ctx ctx' : Context) (isFinal : Bool) :
    ctx' ∈ (if isFinal then (startedWith live ctx).filter (· ≠ ctx) else startedWith live ctx) ↔
      (ctx' = ctx ∧ isFinal = false) ∨ (ctx' ≠ ctx ∧ ctx' ∈ live) := by
  rw [startedWith]
  obtain rfl | hctx := eq_or_ne ctx' ctx
  · cases isFinal <;> by_cases hmem : ctx' ∈ live <;> simp [hmem]
  · cases isFinal <;> by_cases hmem : ctx ∈ live <;> simp [hmem, hctx]

/-- A context outside of the one that is called back keeps its place. -/
theorem callback_run {s : State} (h : MemInv s) {ctx : Context}
    (hlive : (s.slot ctx).isLive = true) (long : SizeofLong) (e : GroupEvent) :
    ∃ o t, callback long ctx e s = (o, t) ∧ Serves long ctx e s t ∧
      (e.isFinal = false → t.group ctx = (s.group ctx).next e ∧ (t.slot ctx).isLive = true ∧
        t.slot ctx ≠ .qfalse) := by
  obtain ⟨i, hslot, -⟩ := aggregateInstance_run hlive e.new
  cases e with
  | step args new step =>
      obtain ⟨t, hrun, hserves, hgroup, htslot, -⟩ :=
        aggregatorStep_run h hlive long args new step
      refine ⟨.ok (), t, hrun, hserves, fun _ => ⟨hgroup, ?_, ?_⟩⟩
      · rw [htslot]
        exact hslot ▸ rfl
      · rw [htslot]
        exact hslot ▸ by simp
  | final new finalize =>
      obtain ⟨o, t, i, hrun, hserves, -, -⟩ := aggregatorFinal_run h hlive long new finalize
      exact ⟨o, t, hrun, hserves, fun hfinal => absurd hfinal (by simp [GroupEvent.isFinal])⟩

/-- Where the group of a context stands. -/
def System.group (s : System) (ctx : Context) : Group :=
  if s.finished ctx then .done else s.mem.group ctx

/-- A callback serves its own group, moves it on, and leaves the others alone. -/
theorem step_serves {long : SizeofLong} {s t : System} {ctx : Context} {e : GroupEvent}
    (h : Inv s) (hstep : step long s (ctx, e) = some t) :
    s.finished ctx = false ∧ Serves long ctx e s.mem t.mem ∧
      t.group ctx = (s.group ctx).next e ∧ (∀ ctx', ctx' ≠ ctx → t.group ctx' = s.group ctx') ∧
      Inv t := by
  simp only [step, Option.ite_none_left_eq_some, Bool.not_eq_true, Option.some.injEq] at hstep
  obtain ⟨hfinished, rfl⟩ := hstep
  obtain ⟨o, m, hrun, hserves, hopen⟩ := callback_run h.mem (h.slot ctx hfinished) long e
  simp only [hrun]
  refine ⟨hfinished, hserves, ?_, ?_, hserves.inv, ?_, ?_⟩
  · cases e with
    | step args new step =>
        simp only [System.group, Function.update_self, hfinished]
        exact (hopen rfl).1
    | final new finalize => simp [System.group, GroupEvent.isFinal, Group.next, Group.after]
  · intro ctx' hne
    simp only [System.group, Function.update_of_ne hne, hserves.group_of_ne ctx' hne]
  · intro ctx' hctx'
    change Function.update s.finished ctx e.isFinal ctx' = false at hctx'
    obtain rfl | hctx := eq_or_ne ctx' ctx
    · rw [Function.update_self] at hctx'
      exact (hopen hctx').2.1
    · rw [Function.update_of_ne hctx] at hctx'
      change (m.slot ctx').isLive = true
      rw [hserves.slot_of_ne ctx' hctx]
      exact h.slot ctx' hctx'
  · intro ctx'
    rw [mem_live_step]
    obtain rfl | hctx := eq_or_ne ctx' ctx
    · simp only [Function.update_self, true_and, ne_eq, not_true, false_and, or_false]
      exact ⟨fun hfinal => ⟨hfinal, (hopen hfinal).2.2⟩, fun hfinal => hfinal.1⟩
    · simp only [hctx, false_and, false_or, ne_eq, not_false_eq_true, true_and,
        Function.update_of_ne hctx, hserves.slot_of_ne ctx' hctx]
      exact h.mem_live ctx'

theorem inv_step {long : SizeofLong} {s t : System} {a : Context × GroupEvent} (h : Inv s)
    (hstep : step long s a = some t) : Inv t :=
  (step_serves h hstep).2.2.2.2

/-! ## Isolation -/

/-- The entries of one context. -/
def ofContext {β : Type} (ctx : Context) (l : List (Context × β)) : List β :=
  (l.filter (·.1 = ctx)).map (·.2)

theorem ofContext_append {β : Type} (ctx : Context) (l l' : List (Context × β)) :
    ofContext ctx (l ++ l') = ofContext ctx l ++ ofContext ctx l' := by
  simp [ofContext]

theorem ofContext_cons_self {β : Type} (ctx : Context) (b : β) (l : List (Context × β)) :
    ofContext ctx ((ctx, b) :: l) = b :: ofContext ctx l := by
  simp [ofContext]

theorem ofContext_cons_of_ne {β : Type} {ctx ctx' : Context} (hne : ctx ≠ ctx') (b : β)
    (l : List (Context × β)) : ofContext ctx' ((ctx, b) :: l) = ofContext ctx' l := by
  simp [ofContext, hne]

theorem ofContext_self {β : Type} (ctx : Context) (bs : List β) :
    ofContext ctx (bs.map (ctx, ·)) = bs := by
  simp [ofContext, List.filter_map, Function.comp_def]

theorem ofContext_of_ne {β : Type} {ctx ctx' : Context} (hne : ctx ≠ ctx') (bs : List β) :
    ofContext ctx' (bs.map (ctx, ·)) = [] := by
  simp [ofContext, List.filter_map, Function.comp_def, hne]

/-- The calls of a group, callback after callback. -/
def Group.runCalls (aw : WrapperId) (g : Group) : List GroupEvent → List RubyCall
  | [] => []
  | e :: es => g.calls aw e ++ (g.next e).runCalls aw es

/-- The results of a group, callback after callback. -/
def Group.runPosts (long : SizeofLong) (g : Group) : List GroupEvent → List FuncResult
  | [] => []
  | e :: es => g.posts long e ++ (g.next e).runPosts long es

/-- Whatever the interleaving, each group is served as if it were alone. -/
theorem run_serves {long : SizeofLong} {s u : System} {as : List (Context × GroupEvent)}
    (h : Inv s) (hrun : StepSystem.exec (step long) s as = some u) (ctx : Context) :
    ofContext ctx u.mem.calls =
        ofContext ctx s.mem.calls ++ (s.group ctx).runCalls ctx.aw (ofContext ctx as) ∧
      ofContext ctx u.mem.posted =
        ofContext ctx s.mem.posted ++ (s.group ctx).runPosts long (ofContext ctx as) := by
  induction as generalizing s with
  | nil =>
      obtain rfl : s = u := Option.some.inj hrun
      simp [ofContext, Group.runCalls, Group.runPosts]
  | cons a as ih =>
      obtain ⟨ctx', e⟩ := a
      obtain ⟨t, ht, hrun⟩ := (StepSystem.exec_cons_eq_some _).mp hrun
      obtain ⟨hfinished, hserves, hself, hothers, hinv⟩ := step_serves h ht
      obtain ⟨hcalls, hposts⟩ := ih hinv hrun
      rw [hcalls, hposts, hserves.calls, hserves.posted, ofContext_append, ofContext_append]
      obtain rfl | hctx := eq_or_ne ctx' ctx
      · have hgroup : s.group ctx' = s.mem.group ctx' := by simp [System.group, hfinished]
        rw [ofContext_self, ofContext_self, ofContext_cons_self, hself, Group.runCalls,
          Group.runPosts, List.append_assoc, List.append_assoc, hgroup]
        exact ⟨rfl, rfl⟩
      · rw [ofContext_of_ne hctx, ofContext_of_ne hctx, ofContext_cons_of_ne hctx,
          hothers ctx (Ne.symm hctx), List.append_nil, List.append_nil]
        exact ⟨rfl, rfl⟩

/-- The calls of a handler: the steps up to the first that raises, and
`finalize` if none did. -/
def servedCalls (handler : HandlerId) : List GroupEvent → List RubyCall
  | [] => []
  | .step args _ step :: es =>
      .step (some handler) (args.map sqlite3val2rb) ::
        if step.Returns then servedCalls handler es else []
  | .final _ _ :: _ => [.finalize (some handler)]

/-- The calls of the user's code for one group: `new`, and those of the handler
if it returned one. -/
def groupCalls (aw : WrapperId) : List GroupEvent → List RubyCall
  | [] => []
  | e :: es =>
      .new aw ::
        match e.new with
        | .ok handler => servedCalls handler (e :: es)
        | _ => []

/-- The results of a group in which something raised: an error at the end. -/
def failedPosts : List GroupEvent → List FuncResult
  | [] => []
  | .step _ _ _ :: es => failedPosts es
  | .final _ _ :: _ => [.error "Ruby Exception occurred"]

/-- The results of a group with a handler: at the end the value of `finalize`,
an error if it raises, and nothing if its value is no result. -/
def servedPosts (long : SizeofLong) : List GroupEvent → List FuncResult
  | [] => []
  | .step _ _ step :: es => if step.Returns then servedPosts long es else failedPosts es
  | .final _ finalize :: _ =>
      match finalize with
      | .ok result =>
          match setSqlite3FuncResult long result with
          | .ok call => [.value call]
          | _ => []
      | _ => [.error "Ruby Exception occurred"]

/-- The results posted for one group. -/
def groupPosts (long : SizeofLong) : List GroupEvent → List FuncResult
  | [] => []
  | e :: es =>
      match e.new with
      | .ok _ => servedPosts long (e :: es)
      | _ => failedPosts (e :: es)

theorem start_start (g : Group) (e : GroupEvent) : (g.start e).start e = g.start e := by
  cases g with
  | fresh => cases hnew : e.new <;> simp [Group.start, hnew]
  | serving _ => rfl
  | failed => rfl
  | done => rfl

theorem start_ne_fresh (g : Group) (e : GroupEvent) : g.start e ≠ .fresh := by
  cases g with
  | fresh => cases hnew : e.new <;> simp [Group.start, hnew]
  | serving _ => simp [Group.start]
  | failed => simp [Group.start]
  | done => simp [Group.start]

/-- The first callback of a group calls `new`, and goes on as in a started group. -/
theorem runCalls_fresh_cons (aw : WrapperId) (e : GroupEvent) (es : List GroupEvent) :
    Group.fresh.runCalls aw (e :: es) = .new aw :: (Group.fresh.start e).runCalls aw (e :: es) := by
  have hnew : Group.fresh.calls aw e = .new aw :: (Group.fresh.start e).serve e := rfl
  have hstarted : (Group.fresh.start e).calls aw e = (Group.fresh.start e).serve e := by
    rw [Group.calls, if_neg (start_ne_fresh .fresh e), start_start, List.nil_append]
  have hnext : (Group.fresh.start e).next e = Group.fresh.next e := by
    rw [Group.next, start_start, Group.next]
  rw [Group.runCalls, Group.runCalls, hnew, hstarted, hnext, List.cons_append]

theorem runPosts_fresh_cons (long : SizeofLong) (e : GroupEvent) (es : List GroupEvent) :
    Group.fresh.runPosts long (e :: es) = (Group.fresh.start e).runPosts long (e :: es) := by
  have hposts : (Group.fresh.start e).posts long e = Group.fresh.posts long e := by
    rw [Group.posts, start_start, Group.posts]
  have hnext : (Group.fresh.start e).next e = Group.fresh.next e := by
    rw [Group.next, start_start, Group.next]
  rw [Group.runPosts, Group.runPosts, hposts, hnext]

/-- Nothing is called in a group that is done or in which something raised. -/
theorem runCalls_eq_nil (aw : WrapperId) {g : Group} (hg : g = .failed ∨ g = .done)
    (es : List GroupEvent) : g.runCalls aw es = [] := by
  induction es generalizing g with
  | nil => rfl
  | cons e es ih =>
      rcases hg with rfl | rfl <;> cases e with
      | step args new step => exact ih (by simp [Group.next, Group.start, Group.after])
      | final new finalize => exact ih (by simp [Group.next, Group.after])

theorem runCalls_serving (aw : WrapperId) (handler : HandlerId) (es : List GroupEvent) :
    (Group.serving handler).runCalls aw es = servedCalls handler es := by
  induction es with
  | nil => rfl
  | cons e es ih =>
      cases e with
      | final new finalize =>
          change [RubyCall.finalize (some handler)] ++ Group.done.runCalls aw es = _
          rw [runCalls_eq_nil aw (Or.inr rfl)]
          rfl
      | step args new step =>
          change RubyCall.step (some handler) (args.map sqlite3val2rb) ::
            (if step.Returns then Group.serving handler else .failed).runCalls aw es = _
          rw [servedCalls]
          by_cases hreturns : step.Returns
          · rw [if_pos hreturns, if_pos hreturns, ih]
          · rw [if_neg hreturns, if_neg hreturns, runCalls_eq_nil aw (Or.inl rfl)]

/-- A group alone makes the calls it should. -/
theorem runCalls_fresh (aw : WrapperId) (es : List GroupEvent) :
    Group.fresh.runCalls aw es = groupCalls aw es := by
  cases es with
  | nil => rfl
  | cons e es =>
      rw [runCalls_fresh_cons, groupCalls, Group.start]
      cases e.new with
      | ok handler => simp only [runCalls_serving]
      | raise _ => simp only [runCalls_eq_nil aw (g := .failed) (Or.inl rfl)]
      | jump _ => simp only [runCalls_eq_nil aw (g := .failed) (Or.inl rfl)]

theorem runPosts_done (long : SizeofLong) (es : List GroupEvent) :
    Group.done.runPosts long es = [] := by
  induction es with
  | nil => rfl
  | cons e es ih => cases e <;> exact ih

theorem runPosts_failed (long : SizeofLong) (es : List GroupEvent) :
    Group.failed.runPosts long es = failedPosts es := by
  induction es with
  | nil => rfl
  | cons e es ih =>
      cases e with
      | step args new step => exact ih
      | final new finalize =>
          change [FuncResult.error "Ruby Exception occurred"] ++ Group.done.runPosts long es = _
          rw [runPosts_done]
          rfl

theorem runPosts_serving (long : SizeofLong) (handler : HandlerId) (es : List GroupEvent) :
    (Group.serving handler).runPosts long es = servedPosts long es := by
  induction es with
  | nil => rfl
  | cons e es ih =>
      cases e with
      | final new finalize =>
          change (Group.serving handler).answer long (.final new finalize) ++
            Group.done.runPosts long es = _
          rw [runPosts_done, List.append_nil]
          cases finalize <;> rfl
      | step args new step =>
          change (if step.Returns then Group.serving handler else .failed).runPosts long es = _
          rw [servedPosts]
          by_cases hreturns : step.Returns
          · rw [if_pos hreturns, if_pos hreturns, ih]
          · rw [if_neg hreturns, if_neg hreturns, runPosts_failed]

/-- A group alone posts the result it should. -/
theorem runPosts_fresh (long : SizeofLong) (es : List GroupEvent) :
    Group.fresh.runPosts long es = groupPosts long es := by
  cases es with
  | nil => rfl
  | cons e es =>
      rw [runPosts_fresh_cons, groupPosts, Group.start]
      cases e.new with
      | ok handler => simp only [runPosts_serving]
      | raise _ => simp only [runPosts_failed]
      | jump _ => simp only [runPosts_failed]

/-- In any interleaving of the callbacks of any number of contexts, the user's
code is called, and results are posted, for each context as its own callbacks
alone ask for. -/
theorem contexts_isolated (long : SizeofLong) (as : List (Context × GroupEvent)) (u : System)
    (hrun : StepSystem.exec (step long) initial as = some u) (ctx : Context) :
    ofContext ctx u.mem.calls = groupCalls ctx.aw (ofContext ctx as) ∧
      ofContext ctx u.mem.posted = groupPosts long (ofContext ctx as) := by
  have hfresh : initial.group ctx = .fresh := rfl
  obtain ⟨hcalls, hposted⟩ := run_serves inv_initial hrun ctx
  rw [hcalls, hposted, hfresh, runCalls_fresh, runPosts_fresh]
  exact ⟨List.nil_append _, List.nil_append _⟩

/-- Two contexts of one aggregator, step by step in turn; the second raises. -/
def twoGroups : List (Context × GroupEvent) :=
  [(⟨0, 0⟩, .step [.integer 1] (.ok 7) (.ok .nil)),
    (⟨0, 1⟩, .step [.integer 2] (.ok 8) (.raise ⟨.ArgumentError, "step"⟩)),
    (⟨0, 0⟩, .final (.ok 7) (.ok (.integer 3))),
    (⟨0, 1⟩, .final (.ok 8) (.ok (.integer 4)))]

theorem twoGroups_isolated :
    ∃ u, StepSystem.exec (step .eight) initial twoGroups = some u ∧
      ofContext ⟨0, 0⟩ u.mem.calls =
        [.new 0, .step (some 7) [.integer 1], .finalize (some 7)] ∧
      ofContext ⟨0, 1⟩ u.mem.calls = [.new 0, .step (some 8) [.integer 2]] ∧
      ofContext ⟨0, 1⟩ u.mem.posted = [.error "Ruby Exception occurred"] := by
  have hrun : ∃ u, StepSystem.exec (step .eight) initial twoGroups = some u := ⟨_, rfl⟩
  obtain ⟨u, hu⟩ := hrun
  have hfirst := contexts_isolated .eight twoGroups u hu ⟨0, 0⟩
  have hsecond := contexts_isolated .eight twoGroups u hu ⟨0, 1⟩
  exact ⟨u, hu, hfirst.1, hsecond.1, hsecond.2⟩

end Sqlite3Ruby.Aggregator
