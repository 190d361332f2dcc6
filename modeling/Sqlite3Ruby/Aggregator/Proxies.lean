import Sqlite3Ruby.Aggregator.Template
import Sqlite3Ruby.Lib.Ownership

/-!
# Aggregates with a `FunctionProxy`

`create_aggregate` and `create_aggregate_handler` make a class whose instances hand a
`FunctionProxy` of their own on to the user's code, to keep what it likes in, and give SQLite the
result that is left there.

## Implementation notes

The user's code gets to its own object and to the `FunctionProxy`, and from there to what it has
put into them; blocks that share a local variable, a constant or a global are left out. The
variable that a class keeps the `FunctionProxy` in is its own. A group by itself is run on a heap
without any objects.
-/

namespace Sqlite3Ruby

namespace Aggregator.Proxies

open Objects

/-- The variables of the classes and of `FunctionProxy`, and whatever the user's objects have. -/
inductive Name (κ : Type)
  | fp
  | result
  | context
  | other (key : κ)
  deriving DecidableEq

variable {κ : Type} [DecidableEq κ]

abbrev Objs (κ : Type) := Heap (Name κ) Value Context

/-- The user's code, with its objects in `n` variables. -/
abbrev UserCode (κ : Type) (n : ℕ) := Code (Name κ) Value (Outcome Value) n

/-- The variable that was bound last. -/
abbrev newest {n : ℕ} : Fin (n + 1) := 0

/-- The user's code is called with the `FunctionProxy`, and the object is its `self`. -/
inductive Aggregate (κ : Type)
  | createAggregate (step : List Value → UserCode κ 2) (finalize : UserCode κ 2)
  | createAggregateHandler (superInitialize : UserCode κ 1) (step : List Value → UserCode κ 2)
      (finalize : UserCode κ 2)

/-- `super` in `initialize`. -/
def Aggregate.superInitialize : Aggregate κ → UserCode κ 1
  | createAggregate _ _ => .done (.data (.ok .nil))
  | createAggregateHandler superInitialize _ _ => superInitialize

def Aggregate.step : Aggregate κ → List Value → UserCode κ 2
  | createAggregate step _ | createAggregateHandler _ step _ => step

def Aggregate.finalize : Aggregate κ → UserCode κ 2
  | createAggregate _ finalize | createAggregateHandler _ _ finalize => finalize

/-- `FunctionProxy.new`, kept in the object. The Hash and the result are new. -/
def functionProxyNew : UserCode κ 1 :=
  .new (fun _ => .nil) (.new (fun _ => .nil)
    (.set 1 .context (.ref 0) (.set 2 .fp (.ref 1) (.done (.data (.ok .nil))))))

/-- A new object. -/
def allocate (ctx : Context) : RubyM (Objs κ) Ref := fun heap =>
  (.ok heap.next, heap.add ctx fun _ => .data .nil)

/-- `initialize` of the class. -/
def Aggregate.setUp (a : Aggregate κ) (ctx : Context) (self : Ref) : RubyM (Objs κ) Unit := do
  let _ ← invoke ctx a.superInitialize self
  let _ ← invoke ctx functionProxyNew self

/-- `new` of the class. -/
def Aggregate.proxyNew (a : Aggregate κ) (ctx : Context) : RubyM (Objs κ) HandlerId := do
  let self ← allocate ctx
  a.setUp ctx self
  pure self

/-- Code that is called with the `FunctionProxy` of the object. -/
def withProxy (code : UserCode κ 2) : UserCode κ 1 :=
  .get newest .fp (fun _ => .done (.data (.raise ⟨.StandardError, "no FunctionProxy"⟩))) code

/-- `result` of a `FunctionProxy`. -/
def proxyResult : UserCode κ 2 :=
  .get newest .result (fun v => .done (.data (.ok v))) (.done (.ref newest))

/-- `step` and `finalize` of the class. -/
def Aggregate.method (a : Aggregate κ) (ctx : Context) (self : Ref) :
    Callback → RubyM (Objs κ) Value
  | .step args => invoke ctx (withProxy (a.step (args.map sqlite3val2rb))) self
  | .final => do
      let _ ← invoke ctx (withProxy a.finalize) self
      invoke ctx (withProxy proxyResult) self

/-! ## Queries -/

def emptyHeap : Objs κ := ⟨fun _ _ => .data .nil, fun _ _ => none, 0⟩

def start : World (Name κ) := ⟨initial, emptyHeap⟩

/-- The objects of the classes. -/
def handlers (d : WrapperId → Aggregate κ) : Handlers (Name κ) where
  new ctx := (d ctx.aw).proxyNew ctx
  method ctx handler c := (d ctx.aw).method ctx handler c

theorem handlers_method (d : WrapperId → Aggregate κ) (ctx : Context) (r : HandlerId)
    (c : Callback) : (handlers d).method ctx r c = (d ctx.aw).method ctx r c := rfl

/-! ## A group by itself -/

/-- The rows of a group, and then `finalize`. -/
def Aggregate.rest (a : Aggregate κ) (ctx : Context) (self : Ref) :
    List (List SqliteValue) → RubyM (Objs κ) Value
  | [] => a.method ctx self .final
  | row :: rows => do
      let _ ← a.method ctx self (.step row)
      a.rest ctx self rows

/-- What the group comes to, with no other object around. -/
def Aggregate.alone (a : Aggregate κ) (ctx : Context) (rows : List (List SqliteValue)) :
    Outcome Value :=
  ((do
    let self ← a.proxyNew ctx
    a.rest ctx self rows : RubyM (Objs κ) Value) emptyHeap).1

/-! ## Objects of a group -/

/-- The object of a group looks like the one of the group by itself, and belongs to the group. -/
structure Goes (ctx : Context) (r s : Ref) (heap alone : Objs κ) : Prop where
  separated : heap.Separated
  owned : heap.OwnedBy ctx r
  similar : ∃ R : Ref → Ref → Prop, R r s ∧ Similar (own ctx) R heap alone

/-- What one group does to the objects: the groups stay apart, and the objects of the others look as
before. -/
structure Apart (ctx : Context) (heap heap' : Objs κ) : Prop where
  separated : heap'.Separated
  keeps : heap.Keeps heap'
  others : ∀ ctx' r s alone, ctx' ≠ ctx → Goes ctx' r s heap alone → Goes ctx' r s heap' alone

/-- What it does on an object of its own. -/
def StaysApart (ctx : Context) (r : Ref) (heap heap' : Objs κ) : Prop :=
  heap.Separated → heap.OwnedBy ctx r → Apart ctx heap heap'

section Objects

variable {ctx : Context} {r s : Ref} {heap alone : Objs κ}

theorem not_own {ctx' : Context} (hne : ctx' ≠ ctx) : ¬ own ctx' (some ctx) := by
  rintro (h | h)
  · cases h
  · exact hne (Option.some.inj h).symm

omit [DecidableEq κ] in
theorem Apart.refl (hseparated : heap.Separated) : Apart ctx heap heap :=
  ⟨hseparated, fun _ _ h => h, fun _ _ _ _ _ h => h⟩

omit [DecidableEq κ] in
theorem Apart.trans {a b c : Objs κ} (hab : Apart ctx a b) (hbc : Apart ctx b c) :
    Apart ctx a c :=
  ⟨hbc.separated, hab.keeps.trans hbc.keeps, fun ctx' r s alone hne hgoes =>
    hbc.others ctx' r s alone hne (hab.others ctx' r s alone hne hgoes)⟩

omit [DecidableEq κ] in
theorem StaysApart.trans {a b c : Objs κ} (hab : StaysApart ctx r a b)
    (hbc : StaysApart ctx r b c) : StaysApart ctx r a c := by
  intro hseparated howned
  have hfirst := hab hseparated howned
  exact hfirst.trans (hbc hfirst.separated (hfirst.keeps ctx r howned))

/-- A method of the object of a group does what it does by itself. -/
theorem invoke_relates (code : UserCode κ 1) :
    RubyM.Relates (Goes ctx r s) (invoke ctx code r) (invoke ctx code s) := by
  rintro heap alone ⟨hseparated, howned, R, hrs, hsim⟩
  have hreads : code.Reads (own ctx) ctx (fun _ => r) heap :=
    code.reads_of_ownedBy (Or.inr rfl) hseparated fun _ => howned
  obtain ⟨hsame, R', hrs', hsim'⟩ := invoke_similar hsim hrs code hreads
  obtain ⟨hseparated', hkeeps, -⟩ := code.run_separated ctx hseparated fun _ => howned
  exact ⟨hsame, hseparated', hkeeps ctx r howned, R', hrs', hsim'⟩

theorem invoke_staysApart (code : UserCode κ 1) (heap : Objs κ) :
    StaysApart ctx r heap (invoke ctx code r heap).2 := by
  intro hseparated howned
  obtain ⟨hseparated', hkeeps, -⟩ := code.run_separated ctx hseparated fun _ => howned
  refine ⟨hseparated', hkeeps, ?_⟩
  rintro ctx' r' s' alone hne ⟨-, howned', R, hrs, hsim⟩
  exact ⟨hseparated', hkeeps ctx' r' howned', R, hrs, hsim.run_left (not_own hne) code _⟩

theorem method_relates (a : Aggregate κ) (c : Callback) :
    RubyM.Relates (Goes ctx r s) (a.method ctx r c) (a.method ctx s c) := by
  cases c with
  | step args => exact invoke_relates _
  | final => exact (invoke_relates _).bind fun _ => invoke_relates _

theorem method_staysApart (a : Aggregate κ) (c : Callback) (heap : Objs κ) :
    StaysApart ctx r heap (a.method ctx r c heap).2 := by
  cases c with
  | step args => exact invoke_staysApart _ heap
  | final =>
      exact RubyM.bind_respects (StaysApart ctx r) StaysApart.trans (invoke_staysApart _)
        (fun _ => invoke_staysApart _) heap

theorem setUp_relates (a : Aggregate κ) :
    RubyM.Relates (Goes ctx r s) (a.setUp ctx r) (a.setUp ctx s) :=
  (invoke_relates _).bind fun _ => (invoke_relates _).bind fun _ _ _ h => ⟨rfl, h⟩

theorem setUp_staysApart (a : Aggregate κ) (heap : Objs κ) :
    StaysApart ctx r heap (a.setUp ctx r heap).2 := by
  refine RubyM.bind_respects (StaysApart ctx r) StaysApart.trans (invoke_staysApart _) ?_ heap
  intro _
  refine RubyM.bind_respects (StaysApart ctx r) StaysApart.trans (invoke_staysApart _) ?_
  exact fun _ heap hseparated _ => Apart.refl hseparated

omit [DecidableEq κ] in
/-- A new object is the same everywhere. -/
theorem allocate_goes (ctx : Context) (hseparated : heap.Separated) (alone : Objs κ) :
    Goes ctx heap.next alone.next (allocate ctx heap).2 (allocate ctx alone).2 := by
  have hnone : Similar (own ctx) (fun _ _ => False) heap alone :=
    ⟨fun _ _ h => h.elim, fun _ _ _ _ h => h.elim, fun _ _ h => h.elim⟩
  refine ⟨hseparated.add fun k s hk => ?_, heap.ownedBy_add ctx _, _, Or.inr ⟨rfl, rfl⟩,
    hnone.add ctx ctx fun _ => .data Value.nil⟩
  cases hk

omit [DecidableEq κ] in
theorem allocate_apart (ctx : Context) (hseparated : heap.Separated) :
    Apart ctx heap (allocate ctx heap).2 := by
  have hkeeps := heap.keeps_add ctx fun _ => .data Value.nil
  have hadd := (allocate_goes ctx hseparated heap).separated
  refine ⟨hadd, hkeeps, ?_⟩
  rintro ctx' r s alone - ⟨-, howned, R, hrs, hsim⟩
  exact ⟨hadd, hkeeps ctx' r howned, R, hrs, hsim.add_left ctx _⟩

theorem proxyNew_run (a : Aggregate κ) (ctx : Context) (heap : Objs κ) :
    a.proxyNew ctx heap =
      ((fun _ => heap.next) <$> (a.setUp ctx heap.next (allocate ctx heap).2).1,
        (a.setUp ctx heap.next (allocate ctx heap).2).2) := by
  have hrun : a.proxyNew ctx heap =
      (do a.setUp ctx heap.next; pure heap.next : RubyM (Objs κ) HandlerId)
        (allocate ctx heap).2 := rfl
  rw [hrun]
  rcases hsetUp : a.setUp ctx heap.next (allocate ctx heap).2 with ⟨o, heap'⟩
  cases o with
  | ok u => exact RubyM.bind_run_ok u _ hsetUp
  | raise e => exact RubyM.bind_run_raise _ hsetUp
  | jump tag => exact RubyM.bind_run_jump _ hsetUp

/-- `new` gives an object or fails, as it does by itself. -/
theorem proxyNew_goes (a : Aggregate κ) (hseparated : heap.Separated) (alone : Objs κ) :
    (∃ r s, (a.proxyNew ctx heap).1 = .ok r ∧ (a.proxyNew ctx alone).1 = .ok s ∧
        Goes ctx r s (a.proxyNew ctx heap).2 (a.proxyNew ctx alone).2) ∨
      ¬ (a.proxyNew ctx heap).1.Returns ∧ ¬ (a.proxyNew ctx alone).1.Returns := by
  obtain ⟨hsame, hgoes⟩ := setUp_relates a _ _ (allocate_goes ctx hseparated alone)
  rw [proxyNew_run, proxyNew_run, ← hsame]
  cases (a.setUp ctx heap.next (allocate ctx heap).2).1 with
  | ok u => exact Or.inl ⟨_, _, rfl, rfl, hgoes⟩
  | raise e => exact Or.inr ⟨Outcome.not_returns_raise e, Outcome.not_returns_raise e⟩
  | jump tag => exact Or.inr ⟨Outcome.not_returns_jump tag, Outcome.not_returns_jump tag⟩

theorem proxyNew_apart (a : Aggregate κ) (hseparated : heap.Separated) :
    Apart ctx heap (a.proxyNew ctx heap).2 := by
  have hnew := allocate_goes ctx hseparated heap
  rw [proxyNew_run]
  exact (allocate_apart ctx hseparated).trans
    (setUp_staysApart a _ hnew.separated hnew.owned)

end Objects

/-! ## One callback -/

/-- The callbacks so far have left the groups apart, each with an object of its own. -/
structure Sound (w : World (Name κ)) : Prop where
  sys : Inv w.sys
  separated : w.heap.Separated
  owned : ∀ ctx r, w.sys.group ctx = .serving r → w.heap.OwnedBy ctx r

/-- How far a group by itself is. -/
inductive Solo (κ : Type)
  | fresh
  | serving (self : Ref) (heap : Objs κ)
  | failed

/-- A group is as far as the group by itself. -/
inductive Stands (w : World (Name κ)) (ctx : Context) : Solo κ → Prop
  | fresh (hgroup : w.sys.group ctx = .fresh) : Stands w ctx .fresh
  | serving {r s : Ref} {alone : Objs κ} (hgroup : w.sys.group ctx = .serving r)
      (hgoes : Goes ctx r s w.heap alone) : Stands w ctx (.serving s alone)
  | failed (hgroup : w.sys.group ctx = .failed) : Stands w ctx .failed

/-- What is posted for a group by itself, with these rows to come. -/
def Solo.expected (a : Aggregate κ) (ctx : Context) (long : SizeofLong) (solo : Solo κ)
    (rows : List (List SqliteValue)) : List FuncResult :=
  match solo with
  | .fresh => Aggregator.posts long (a.alone ctx rows)
  | .serving self heap => Aggregator.posts long (a.rest ctx self rows heap).1
  | .failed => [.error "Ruby Exception occurred"]

section Callbacks

variable {d : WrapperId → Aggregate κ} {w : World (Name κ)} {ctx : Context}

/-- Making the handler, where there is none, disturbs no other group. -/
theorem Sound.handler_apart (h : Sound w) (d : WrapperId → Aggregate κ) (ctx : Context) :
    Apart ctx w.heap ((handlers d).handler w ctx).2 ∧
      ∀ r, ((handlers d).handler w ctx).1 = .ok r →
        ((handlers d).handler w ctx).2.OwnedBy ctx r := by
  rw [Handlers.handler]
  cases hgroup : w.sys.group ctx with
  | fresh =>
      refine ⟨proxyNew_apart _ h.separated, fun r hr => ?_⟩
      rcases proxyNew_goes (d ctx.aw) h.separated w.heap with ⟨r', s, hr', -, hgoes⟩ | ⟨hfails, -⟩
      · obtain rfl : r' = r := Outcome.ok.inj (hr'.symm.trans hr)
        exact hgoes.owned
      · exact absurd ⟨r, hr⟩ hfails
  | serving r' =>
      refine ⟨Apart.refl h.separated, fun r hr => ?_⟩
      obtain rfl : r' = r := Outcome.ok.inj hr
      exact h.owned ctx r' hgroup
  | failed => exact ⟨Apart.refl h.separated, fun r hr => by cases hr⟩
  | done => exact ⟨Apart.refl h.separated, fun r hr => by cases hr⟩

theorem Sound.respond_apart (h : Sound w) (d : WrapperId → Aggregate κ) (ctx : Context)
    (c : Callback) : Apart ctx w.heap ((handlers d).respond w ctx c).2 := by
  obtain ⟨hapart, howned⟩ := h.handler_apart d ctx
  rcases hhandler : (handlers d).handler w ctx with ⟨new, heap⟩
  rw [hhandler] at hapart howned
  by_cases hreturns : new.Returns
  · obtain ⟨r, rfl⟩ := hreturns
    rw [Handlers.respond_of_handler hhandler]
    exact hapart.trans (method_staysApart _ c heap hapart.separated (howned r rfl))
  · rw [Handlers.respond_of_fails hhandler hreturns]
    exact hapart

theorem start_of_fails {new : Outcome HandlerId} (hfails : ¬ new.Returns) (c : Callback)
    (method : Outcome Value) : Group.start .fresh (c.event new method) = .failed := by
  cases new with
  | ok r => exact absurd (Outcome.returns_ok r) hfails
  | raise e => cases c <;> rfl
  | jump tag => cases c <;> rfl

/-- Without a handler, a group does not go on. -/
theorem next_ne_serving {new : Outcome HandlerId} {heap : Objs κ}
    (h : (handlers d).handler w ctx = (new, heap)) (hfails : ¬ new.Returns) (c : Callback)
    (method : Outcome Value) (r : HandlerId) :
    (w.sys.group ctx).next (c.event new method) ≠ .serving r := by
  rw [Handlers.handler] at h
  rw [Group.next]
  cases hgroup : w.sys.group ctx with
  | fresh =>
      rw [start_of_fails hfails]
      cases c <;> simp [Group.after, Callback.event]
  | serving handler =>
      simp only [hgroup, Prod.mk.injEq] at h
      exact absurd ⟨handler, h.1.symm⟩ hfails
  | failed => cases c <;> simp [Group.start, Group.after, Callback.event]
  | done => cases c <;> simp [Group.start, Group.after, Callback.event]

theorem Sound.callback {long : SizeofLong} {w' : World (Name κ)} {a : Context × Callback}
    (h : Sound w) (hcall : (handlers d).callback long w a = some w') : Sound w' := by
  obtain ⟨ctx, c⟩ := a
  obtain ⟨hinv, hheap, -, hnext, hothers⟩ := Handlers.callback_run h.sys hcall
  have hapart := h.respond_apart d ctx c
  refine ⟨hinv, hheap ▸ hapart.separated, fun ctx' r hgroup => ?_⟩
  rw [hheap]
  by_cases hctx : ctx' = ctx
  · subst hctx
    rw [hgroup] at hnext
    obtain ⟨hmade, howned⟩ := h.handler_apart d ctx'
    rcases hhandler : (handlers d).handler w ctx' with ⟨new, heap⟩
    rw [hhandler] at hmade howned
    by_cases hreturns : new.Returns
    · obtain ⟨r', rfl⟩ := hreturns
      have hkept := (method_staysApart (d ctx'.aw) c heap hmade.separated (howned r' rfl)).keeps
      rw [Handlers.respond_of_handler hhandler] at hnext ⊢
      have hsame : r' = r := by
        rw [Group.next, Handlers.start_of_handler hhandler] at hnext
        cases c with
        | step args =>
            simp only [Group.after, Callback.event] at hnext
            split at hnext
            · exact (Group.serving.inj hnext).symm
            · cases hnext
        | final => cases hnext
      exact hsame ▸ hkept ctx' r' (howned r' rfl)
    · rw [Handlers.respond_of_fails hhandler hreturns] at hnext
      exact absurd hnext.symm (next_ne_serving hhandler hreturns c _ r)
  · rw [hothers ctx' hctx] at hgroup
    exact hapart.keeps ctx' r (h.owned ctx' r hgroup)

/-- The callbacks of another group leave a group where it is. -/
theorem Stands.of_ne {long : SizeofLong} {w' : World (Name κ)} {ctx' : Context} {c : Callback}
    {solo : Solo κ} (hsound : Sound w) (hne : ctx' ≠ ctx)
    (hcall : (handlers d).callback long w (ctx', c) = some w') (h : Stands w ctx solo) :
    Stands w' ctx solo := by
  obtain ⟨-, hheap, -, -, hothers⟩ := Handlers.callback_run hsound.sys hcall
  have hsame := hothers ctx hne.symm
  cases h with
  | fresh hgroup => exact .fresh (hsame.trans hgroup)
  | serving hgroup hgoes =>
      refine .serving (hsame.trans hgroup) (hheap ▸ ?_)
      exact (hsound.respond_apart d ctx' c).others ctx _ _ _ hne.symm hgoes
  | failed hgroup => exact .failed (hsame.trans hgroup)

theorem posts_of_not_returns (long : SizeofLong) {o : Outcome Value} (h : ¬ o.Returns) :
    Aggregator.posts long o = [.error "Ruby Exception occurred"] := by
  cases o with
  | ok v => exact absurd (Outcome.returns_ok v) h
  | raise e => rfl
  | jump tag => rfl

/-- The object of a group by itself, in the place of the handler. -/
theorem Stands.handler_cases {solo : Solo κ} (hsound : Sound w) (h : Stands w ctx solo)
    (long : SizeofLong) :
    (∃ r s heap alone, (handlers d).handler w ctx = (.ok r, heap) ∧ Goes ctx r s heap alone ∧
      ∀ rows, solo.expected (d ctx.aw) ctx long rows =
        (Solo.serving s alone).expected (d ctx.aw) ctx long rows) ∨
    (∃ new heap, (handlers d).handler w ctx = (new, heap) ∧ ¬ new.Returns ∧
      (∀ c method, (w.sys.group ctx).start (Callback.event c new method) = .failed) ∧
      ∀ rows, solo.expected (d ctx.aw) ctx long rows = [.error "Ruby Exception occurred"]) := by
  cases h with
  | fresh hgroup =>
      have hhandler : (handlers d).handler w ctx = (d ctx.aw).proxyNew ctx w.heap := by
        rw [Handlers.handler, hgroup]
        rfl
      rcases proxyNew_goes (d ctx.aw) hsound.separated emptyHeap with
        ⟨r, s, hr, hs, hgoes⟩ | ⟨hfails, hfails'⟩
      · refine Or.inl ⟨r, s, _, _, hhandler.trans (Prod.ext hr rfl), hgoes, fun rows => ?_⟩
        rw [Solo.expected, Solo.expected, Aggregate.alone, RubyM.bind_run_ok s _ (Prod.ext hs rfl)]
      · refine Or.inr ⟨_, _, hhandler, hfails, fun c method => ?_, fun rows => ?_⟩
        · rw [hgroup]
          exact start_of_fails hfails c method
        · refine posts_of_not_returns long fun hreturns => ?_
          rw [Aggregate.alone, RubyM.bind_returns_iff] at hreturns
          obtain ⟨s, hs, -⟩ := hreturns
          exact hfails' ⟨s, hs⟩
  | @serving r s alone hgroup hgoes =>
      have hhandler : (handlers d).handler w ctx = (.ok r, w.heap) := by
        rw [Handlers.handler, hgroup]
      exact Or.inl ⟨r, s, w.heap, alone, hhandler, hgoes, fun _ => rfl⟩
  | failed hgroup =>
      have hhandler : (handlers d).handler w ctx = (.jump "no handler", w.heap) := by
        rw [Handlers.handler, hgroup]
      refine Or.inr ⟨_, w.heap, hhandler, Outcome.not_returns_jump _, ?_, fun _ => rfl⟩
      intro c method
      rw [hgroup]
      rfl

/-- A row of a group. -/
theorem Stands.step {long : SizeofLong} {w' : World (Name κ)} {row : List SqliteValue}
    {solo : Solo κ} (hsound : Sound w) (h : Stands w ctx solo)
    (hcall : (handlers d).callback long w (ctx, .step row) = some w') :
    ofContext ctx w'.sys.mem.posted = ofContext ctx w.sys.mem.posted ∧
      ∃ solo', Stands w' ctx solo' ∧ ∀ rows, solo.expected (d ctx.aw) ctx long (row :: rows) =
        solo'.expected (d ctx.aw) ctx long rows := by
  obtain ⟨-, hheap, hposted, hnext, -⟩ := Handlers.callback_run hsound.sys hcall
  rw [hposted, ofContext_append, ofContext_self]
  rcases h.handler_cases hsound long with
    ⟨r, s, heap, alone, hhandler, hgoes, hexpected⟩ |
      ⟨new, heap, hhandler, hfails, hstart, hexpected⟩
  · obtain ⟨hsame, hgoes'⟩ := method_relates (d ctx.aw) (.step row) heap alone hgoes
    rw [Handlers.respond_of_handler hhandler] at hheap hnext ⊢
    rw [Group.next, Handlers.start_of_handler hhandler] at hnext
    refine ⟨List.append_nil _, ?_⟩
    by_cases hreturns : ((d ctx.aw).method ctx r (.step row) heap).1.Returns
    · refine ⟨.serving s ((d ctx.aw).method ctx s (.step row) alone).2, ?_, fun rows => ?_⟩
      · exact .serving (hnext.trans (if_pos hreturns)) (hheap ▸ hgoes')
      · obtain ⟨v, hv⟩ := hsame ▸ hreturns
        rw [hexpected, Solo.expected, Aggregate.rest, RubyM.bind_run_ok v _ (Prod.ext hv rfl)]
        rfl
    · refine ⟨.failed, .failed (hnext.trans (if_neg hreturns)), fun rows => ?_⟩
      rw [hexpected, Solo.expected]
      refine posts_of_not_returns long fun hrest => hreturns ?_
      obtain ⟨v, hv, -⟩ := (RubyM.bind_returns_iff _ _ _).mp hrest
      exact ⟨v, hsame.trans hv⟩
  · rw [Handlers.respond_of_fails hhandler hfails] at hnext ⊢
    rw [Group.next, hstart] at hnext
    exact ⟨List.append_nil _, .failed, .failed hnext, fun rows => hexpected _⟩

theorem Stands.final {long : SizeofLong} {w' : World (Name κ)} {solo : Solo κ} (hsound : Sound w)
    (h : Stands w ctx solo) (hcall : (handlers d).callback long w (ctx, .final) = some w') :
    ofContext ctx w'.sys.mem.posted =
      ofContext ctx w.sys.mem.posted ++ solo.expected (d ctx.aw) ctx long [] := by
  obtain ⟨-, -, hposted, -, -⟩ := Handlers.callback_run hsound.sys hcall
  rw [hposted, ofContext_append, ofContext_self, Group.posts]
  rcases h.handler_cases hsound long with
    ⟨r, s, heap, alone, hhandler, hgoes, hexpected⟩ |
      ⟨new, heap, hhandler, hfails, hstart, hexpected⟩
  · have hsame := (method_relates (d ctx.aw) .final heap alone hgoes).1
    rw [hexpected, Solo.expected, Aggregate.rest, ← hsame, Handlers.respond_of_handler hhandler,
      handlers_method, Handlers.start_of_handler hhandler]
    cases ((d ctx.aw).method ctx r .final heap).1 <;> rfl
  · rw [hexpected, Handlers.respond_of_fails hhandler hfails, hstart]
    rfl

end Callbacks

/-! ## Runs -/

/-- A group by itself goes with it. -/
theorem follows (d : WrapperId → Aggregate κ) (long : SizeofLong) (ctx : Context) :
    (handlers d).Follows long ctx Sound (fun _ _ => True) (fun w => Stands w ctx)
      (fun solo => solo.expected (d ctx.aw) ctx long) where
  inv _ hsound := hsound.sys
  sound _ _ _ hsound hcall := hsound.callback hcall
  other _ _ _ _ _ hsound hne hcall hstands := hstands.of_ne hsound hne hcall
  step _ _ _ _ hsound _ hcall hstands := hstands.step hsound hcall
  final _ _ _ hsound _ hcall hstands := hstands.final hsound hcall

omit [DecidableEq κ] in
theorem sound_start : Sound (start : World (Name κ)) where
  sys := inv_initial
  separated := Heap.separated_of_empty rfl
  owned _ _ h := by cases h

/-- Each group of an aggregate from `create_aggregate` or `create_aggregate_handler` comes to what
it comes to by itself, whatever the groups of any aggregates do in between, keep in their objects
and their `FunctionProxy`, or raise. -/
theorem proxy_groups_alone (long : SizeofLong) (d : WrapperId → Aggregate κ)
    (calls : List (Context × Callback)) (u : World (Name κ))
    (hrun : StepSystem.exec ((handlers d).callback long) start calls = some u) (ctx : Context)
    (rows : List (List SqliteValue)) (hrows : ofContext ctx calls = rows.map .step ++ [.final]) :
    ofContext ctx u.sys.mem.posted = Aggregator.posts long ((d ctx.aw).alone ctx rows) :=
  (follows d long ctx).run sound_start (Stands.fresh rfl) hrun
    (StepSystem.alwaysStep_of_invariant (P := fun _ (a : Context × Callback) => a.1 = ctx → True)
      (fun _ _ _ hsound hcall => hsound.callback hcall) (fun _ _ _ _ _ _ => trivial) sound_start)
    hrows

/-- `func[:total] ||= 0` and `func[:total] += value`, and `func.result = func[:total]`. -/
def totals : WrapperId → Aggregate Unit := fun _ =>
  .createAggregate
    (fun args => .get newest .context (fun _ => .done (.data (.ok .nil)))
      (.get newest (.other ())
        (fun v => .set newest (.other ()) (.data (plus (if v = .nil then .integer 0 else v) args))
          (.done (.data (.ok .nil))))
        (.done (.data (.ok .nil)))))
    (.get newest .context (fun _ => .done (.data (.ok .nil)))
      (.get newest (.other ()) (fun v => .set 1 .result (.data v) (.done (.data (.ok .nil))))
        (.done (.data (.ok .nil)))))

theorem totals_inTurn :
    ∃ u, StepSystem.exec ((handlers totals).callback .eight) start inTurn = some u ∧
      ofContext ⟨0, 1⟩ u.sys.mem.posted = [.value (.int64 2)] := by
  have hrun : ∃ u, StepSystem.exec ((handlers totals).callback .eight) start inTurn = some u :=
    ⟨_, rfl⟩
  obtain ⟨u, hu⟩ := hrun
  exact ⟨u, hu, proxy_groups_alone .eight totals inTurn u hu ⟨0, 1⟩ [[.integer 2]] rfl⟩

end Aggregator.Proxies

end Sqlite3Ruby
