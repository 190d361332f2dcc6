import Mathlib.Data.List.Forall2
import Sqlite3Ruby.Aggregator.Runs

/-!
# The registry of live aggregate instances

`-instances` keeps the instances in the slots of SQLite alive. It should hold
one for each context that has started and not been finalized, and no other.

## Implementation notes

The registry is compared with the list of live contexts in the order of their
start, which is the order in which `rb_ary_push` and `rb_ary_delete` keep it.
-/

namespace Sqlite3Ruby.Aggregator

/-- Taking one element out of each of two related lists, when the relation pairs
that element with the other alone. -/
theorem forall₂_filter_ne {α β : Type} [DecidableEq α] [DecidableEq β] {R R' : α → β → Prop}
    {xs : List α} {ys : List β} {x : α} {y : β} (h : List.Forall₂ R xs ys)
    (hiff : ∀ x' y', R x' y' → (x' = x ↔ y' = y)) (hkeep : ∀ x' y', R x' y' → y' ≠ y → R' x' y') :
    List.Forall₂ R' (xs.filter (· ≠ x)) (ys.filter (· ≠ y)) := by
  induction h with
  | nil => exact .nil
  | @cons x' y' xs ys hxy _ ih =>
      by_cases hy : y' = y
      · have hx : x' = x := (hiff x' y' hxy).mpr hy
        simpa [hx, hy] using ih
      · have hx : x' ≠ x := fun hx => hy ((hiff x' y' hxy).mp hx)
        simpa [hx, hy] using And.intro (hkeep x' y' hxy hy) ih

/-- The instances of each aggregator are those in the slots of its live
contexts, one for each. -/
def Exact (s : State) (live : List Context) : Prop :=
  ∀ aw, List.Forall₂ (fun i ctx => s.slot ctx = .inst i) (s.instances aw)
    (live.filter (·.aw = aw))

/-- `-instances` holds one instance for each context that has started and whose
`xFinal` has not been called, and nothing else. -/
def RegistryExact (s : System) : Prop := Exact s.mem s.live

/-- With no query running, the registry is empty. -/
theorem RegistryExact.instances_eq_nil {s : System} (h : RegistryExact s) (hidle : s.live = [])
    (aw : WrapperId) : s.mem.instances aw = [] := by
  have haw := h aw
  rw [hidle] at haw
  exact List.forall₂_nil_right_iff.mp haw

/-- A context that starts brings its instance. -/
theorem Exact.prepared {s : State} {live : List Context} (h : Exact s live) {ctx : Context}
    (hmem : ctx ∈ live ↔ s.slot ctx ≠ .qfalse) (new : Outcome HandlerId) :
    Exact (s.prepared ctx new) (startedWith live ctx) := by
  by_cases hslot : s.slot ctx = .qfalse
  · have hnot : ctx ∉ live := fun hctx => hmem.mp hctx hslot
    rw [prepared_of_qfalse hslot, startedWith, if_neg hnot]
    intro aw
    have hold : List.Forall₂ (fun i ctx' => (s.newInstance ctx new).slot ctx' = .inst i)
        (s.instances aw) (live.filter (·.aw = aw)) := by
      apply (h aw).imp
      intro i ctx' hi
      have hne : ctx' ≠ ctx := by
        rintro rfl
        rw [hslot] at hi
        cases hi
      rwa [newInstance_slot, Function.update_of_ne hne]
    rw [newInstance_instances, List.filter_append]
    obtain rfl | haw := eq_or_ne aw ctx.aw
    · rw [Function.update_self]
      apply List.rel_append hold
      simp [newInstance_slot]
    · rw [Function.update_of_ne haw]
      simpa [Ne.symm haw] using hold
  · rw [startedWith, if_pos (hmem.mpr hslot), State.prepared, if_neg hslot]
    exact h

/-- A context that is finalized takes its instance away. -/
theorem Exact.finalized {p t : State} {live : List Context} (h : Exact p live) (hinv : MemInv p)
    {ctx : Context} {i : InstanceId} (hslot : p.slot ctx = .inst i)
    (htslot : t.slot = Function.update p.slot ctx .qnil)
    (hinstances : t.instances =
      Function.update p.instances ctx.aw ((p.instances ctx.aw).filter (· ≠ i))) :
    Exact t (live.filter (· ≠ ctx)) := by
  have hkeep (j : InstanceId) (ctx' : Context) (hj : p.slot ctx' = .inst j) (hne : ctx' ≠ ctx) :
      t.slot ctx' = .inst j := by
    rwa [htslot, Function.update_of_ne hne]
  intro aw
  have hcomm : (live.filter (· ≠ ctx)).filter (·.aw = aw) =
      (live.filter (·.aw = aw)).filter (· ≠ ctx) := by
    rw [List.filter_filter, List.filter_filter]
    exact List.filter_congr fun _ _ => Bool.and_comm _ _
  rw [hcomm, hinstances]
  obtain rfl | haw := eq_or_ne aw ctx.aw
  · rw [Function.update_self]
    refine forall₂_filter_ne (h ctx.aw) (fun j ctx' hj => ⟨?_, ?_⟩) hkeep
    · rintro rfl
      exact hinv.unshared ctx' ctx j hj hslot
    · rintro rfl
      rw [hslot] at hj
      exact (Slot.inst.inj hj).symm
  · rw [Function.update_of_ne haw]
    have hne (ctx' : Context) (hctx' : ctx' ∈ live.filter (·.aw = aw)) : ctx' ≠ ctx := by
      rintro rfl
      exact haw (of_decide_eq_true (List.mem_filter.mp hctx').2).symm
    rw [List.filter_eq_self.mpr fun ctx' hctx' => decide_eq_true (hne ctx' hctx')]
    obtain ⟨hlength, hzip⟩ := List.forall₂_iff_zip.mp (h aw)
    refine List.forall₂_iff_zip.mpr ⟨hlength, fun hj => ?_⟩
    exact hkeep _ _ (hzip hj) (hne _ (List.of_mem_zip hj).2)

/-- A context that is gone must have taken its instance with it. -/
theorem Exact.not_unwound {p t : State} {live : List Context} (h : Exact p live) {ctx : Context}
    (hctx : ctx ∈ live) (hinstances : t.instances = p.instances) :
    ¬ Exact t (live.filter (· ≠ ctx)) := by
  intro hexact
  have hold : (p.instances ctx.aw).length = (live.filter (·.aw = ctx.aw)).length :=
    (h ctx.aw).length_eq
  have hnew : (t.instances ctx.aw).length =
      ((live.filter (·.aw = ctx.aw)).filter (· ≠ ctx)).length := by
    rw [(hexact ctx.aw).length_eq, List.filter_filter, List.filter_filter]
    exact congrArg List.length (List.filter_congr fun _ _ => Bool.and_comm _ _)
  have hless : ((live.filter (·.aw = ctx.aw)).filter (· ≠ ctx)).length <
      (live.filter (·.aw = ctx.aw)).length := by
    refine List.length_filter_lt_length_iff_exists.mpr ⟨ctx, ?_, by simp⟩
    exact List.mem_filter.mpr ⟨hctx, by simp⟩
  rw [hinstances, hold] at hnew
  exact hless.ne hnew.symm

theorem mem_startedWith (live : List Context) (ctx : Context) : ctx ∈ startedWith live ctx := by
  rw [startedWith]
  split
  · assumption
  · exact List.mem_append_right _ (List.mem_singleton_self _)

/-- One callback keeps the registry exact, unless it is a final one whose result
cannot be posted. -/
theorem registryExact_step {long : SizeofLong} {s t : System} {a : Context × GroupEvent}
    (hinv : Inv s) (hexact : RegistryExact s) (hstep : step long s a = some t) :
    RegistryExact t ↔ ¬ (s.mem.group a.1).misfinalizes a.2 := by
  obtain ⟨ctx, e⟩ := a
  simp only [step, Option.ite_none_left_eq_some, Bool.not_eq_true, Option.some.injEq] at hstep
  obtain ⟨hfinished, rfl⟩ := hstep
  have hlive := hinv.slot ctx hfinished
  have hmem : ctx ∈ s.live ↔ s.mem.slot ctx ≠ .qfalse := by
    simp [hinv.mem_live ctx, hfinished]
  have hprepared := Exact.prepared hexact hmem e.new
  cases e with
  | step args new step =>
      obtain ⟨t, hrun, -, -, hslot, hinstances⟩ :=
        aggregatorStep_run hinv.mem hlive long args new step
      have hexact' : Exact t (startedWith s.live ctx) := by
        intro aw
        rw [hslot, hinstances]
        exact hprepared aw
      simpa [RegistryExact, callback, hrun, GroupEvent.isFinal, Group.misfinalizes] using hexact'
  | final new finalize =>
      obtain ⟨o, t, i, hrun, -, hreturns, hslot, hreturned, hunwound⟩ :=
        aggregatorFinal_run hinv.mem hlive long new finalize
      rw [← hreturns]
      change Exact (aggregatorFinal long ctx new finalize s.mem).2
        ((startedWith s.live ctx).filter (· ≠ ctx)) ↔ _
      rw [hrun]
      by_cases hback : o.Returns
      · obtain ⟨htslot, hinstances⟩ := hreturned hback
        exact iff_of_true
          (hprepared.finalized (hinv.mem.prepared ctx new) hslot htslot hinstances) hback
      · obtain ⟨-, hinstances⟩ := hunwound hback
        exact iff_of_false (hprepared.not_unwound (mem_startedWith s.live ctx) hinstances) hback

theorem registryExact_initial : RegistryExact initial := fun _ => .nil

/-- The registry is exact in every state of a run exactly when no `xFinal` of the
run calls a `finalize` whose result cannot be posted. -/
theorem registry_exact_iff (long : SizeofLong) (as : List (Context × GroupEvent)) :
    StepSystem.AlwaysState (step long) RegistryExact initial as ↔
      StepSystem.AlwaysStep (step long)
        (fun s a => ¬ (s.mem.group a.1).misfinalizes a.2) initial as :=
  StepSystem.alwaysState_iff_alwaysStep (fun _ _ _ hinv hstep => inv_step hinv hstep)
    (fun _ _ _ hinv hexact hstep => registryExact_step hinv hexact hstep)
    inv_initial registryExact_initial

/-- An empty group whose `finalize` returns `true`: the instance stays. -/
theorem finalizeTrue_leaks :
    ∃ u, StepSystem.exec (step .eight) initial [(⟨0, 0⟩, .final (.ok 0) (.ok .true_))] = some u ∧
      u.live = [] ∧ u.mem.instances 0 = [0] ∧ ¬ RegistryExact u := by
  refine ⟨_, rfl, rfl, rfl, ?_⟩
  intro h
  exact List.cons_ne_nil 0 [] (h.instances_eq_nil rfl 0)

end Sqlite3Ruby.Aggregator
