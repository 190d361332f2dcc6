import Mathlib.Data.List.Infix

/-!
# Runs of a guarded step function

A system is a step function `σ → α → Option σ`: an action that is not enabled
in a state has no successor. The rules below pass from one step to a whole
run, once for every system of the development.

## Implementation notes

The state and step predicates are computed along the run itself, so a
statement about every state reached or about every step taken is an induction
on the list of actions and needs no separate notion of a trace.
-/

namespace StepSystem

variable {σ α : Type*} (step : σ → α → Option σ)

/-- The state after a list of actions, if every one of them is enabled. -/
def exec (s : σ) : List α → Option σ
  | [] => some s
  | a :: as => (step s a).bind fun t => exec t as

/-- `P` holds of the starting state and of every state the run reaches. -/
def AlwaysState (P : σ → Prop) (s : σ) : List α → Prop
  | [] => P s
  | a :: as => P s ∧ ∀ t, step s a = some t → AlwaysState P t as

/-- `P` holds of every step the run takes, as a state and the action taken in it. -/
def AlwaysStep (P : σ → α → Prop) (s : σ) : List α → Prop
  | [] => True
  | a :: as => ∀ t, step s a = some t → P s a ∧ AlwaysStep P t as

/-- The sum of what the steps of a run are worth, as far as it comes. -/
def total (worth : σ → α → Nat) (s : σ) : List α → Nat
  | [] => 0
  | a :: as => (step s a).elim 0 fun t => worth s a + total worth t as

theorem exec_cons_eq_some {s u : σ} {a : α} {as : List α} :
    exec step s (a :: as) = some u ↔ ∃ t, step s a = some t ∧ exec step t as = some u := by
  simp [exec, Option.bind_eq_some_iff]

theorem exec_append (s : σ) (as bs : List α) :
    exec step s (as ++ bs) = (exec step s as).bind fun t => exec step t bs := by
  induction as generalizing s with
  | nil => rfl
  | cons a as ih =>
      simp only [List.cons_append, exec, Option.bind_assoc, ih]

@[simp] theorem alwaysState_nil (P : σ → Prop) (s : σ) :
    AlwaysState step P s [] ↔ P s := Iff.rfl

theorem alwaysState_cons (P : σ → Prop) (s : σ) (a : α) (as : List α) :
    AlwaysState step P s (a :: as) ↔
      P s ∧ ∀ t, step s a = some t → AlwaysState step P t as := Iff.rfl

@[simp] theorem alwaysStep_nil (P : σ → α → Prop) (s : σ) :
    AlwaysStep step P s [] ↔ True := Iff.rfl

theorem alwaysStep_cons (P : σ → α → Prop) (s : σ) (a : α) (as : List α) :
    AlwaysStep step P s (a :: as) ↔
      ∀ t, step s a = some t → P s a ∧ AlwaysStep step P t as := Iff.rfl

variable {step}

/-- The first state of a run is one of the states it reaches. -/
theorem AlwaysState.head {P : σ → Prop} {s : σ} {as : List α}
    (h : AlwaysState step P s as) : P s := by
  cases as with
  | nil => exact h
  | cons a as => exact h.1

/-- A property of every state reached holds in the last one. -/
theorem AlwaysState.last {P : σ → Prop} {s u : σ} {as : List α}
    (h : AlwaysState step P s as) (hu : exec step s as = some u) : P u := by
  induction as generalizing s with
  | nil =>
      obtain rfl : s = u := Option.some.inj hu
      exact h
  | cons a as ih =>
      obtain ⟨t, ht, hu⟩ := (exec_cons_eq_some step).mp hu
      exact ih (h.2 t ht) hu

/-- A property of every step taken holds of the last one. -/
theorem AlwaysStep.last {P : σ → α → Prop} {s t u : σ} {as : List α} {a : α}
    (h : AlwaysStep step P s (as ++ [a])) (ht : exec step s as = some t)
    (hu : step t a = some u) : P t a := by
  induction as generalizing s with
  | nil =>
      obtain rfl : s = t := Option.some.inj ht
      exact (h u hu).1
  | cons b as ih =>
      obtain ⟨v, hv, ht⟩ := (exec_cons_eq_some step).mp ht
      exact ih (h v hv).2 ht

/-- An invariant that every step preserves holds in every state a run reaches. -/
theorem exec_invariant {Inv : σ → Prop}
    (hstep : ∀ s a t, Inv s → step s a = some t → Inv t)
    {s u : σ} {as : List α} (hs : Inv s) (hu : exec step s as = some u) : Inv u := by
  induction as generalizing s with
  | nil =>
      obtain rfl : s = u := Option.some.inj hu
      exact hs
  | cons a as ih =>
      obtain ⟨t, ht, hu⟩ := (exec_cons_eq_some step).mp hu
      exact ih (hstep s a t hs ht) hu

/-- An invariant of a state and of what has been summed up on the way to it, under any number
of heads. -/
theorem exec_total {ι : Type*} {worth : ι → σ → α → Nat} {Inv : σ → (ι → Nat) → Prop}
    (hstep : ∀ s a t m, Inv s m → step s a = some t → Inv t fun i => m i + worth i s a)
    {s u : σ} {as : List α} {m : ι → Nat} (hs : Inv s m) (hu : exec step s as = some u) :
    Inv u fun i => m i + total step (worth i) s as := by
  induction as generalizing s m with
  | nil =>
      obtain rfl : s = u := Option.some.inj hu
      exact hs
  | cons a as ih =>
      obtain ⟨t, ht, hu⟩ := (exec_cons_eq_some step).mp hu
      have hsum : (fun i => m i + total step (worth i) s (a :: as)) =
          fun i => m i + worth i s a + total step (worth i) t as := by
        funext i
        rw [total, ht, Option.elim_some, Nat.add_assoc]
      rw [hsum]
      exact ih (hstep s a t m hs ht) hu

/-- An invariant that every step preserves holds in every state of a run. -/
theorem alwaysState_of_invariant {Inv : σ → Prop}
    (hstep : ∀ s a t, Inv s → step s a = some t → Inv t)
    {s : σ} {as : List α} (hs : Inv s) : AlwaysState step Inv s as := by
  induction as generalizing s with
  | nil => exact hs
  | cons a as ih => exact ⟨hs, fun t ht => ih (hstep s a t hs ht)⟩

/-- What an invariant says of every step holds of every step of a run. -/
theorem alwaysStep_of_invariant {Inv : σ → Prop} {P : σ → α → Prop}
    (hstep : ∀ s a t, Inv s → step s a = some t → Inv t)
    (hP : ∀ s a t, Inv s → step s a = some t → P s a)
    {s : σ} {as : List α} (hs : Inv s) : AlwaysStep step P s as := by
  induction as generalizing s with
  | nil => trivial
  | cons a as ih => exact fun t ht => ⟨hP s a t hs ht, ih (hstep s a t hs ht)⟩

theorem AlwaysState.mono {P Q : σ → Prop} (h : ∀ s, P s → Q s) {s : σ} {as : List α}
    (hP : AlwaysState step P s as) : AlwaysState step Q s as := by
  induction as generalizing s with
  | nil => exact h s hP
  | cons a as ih => exact ⟨h s hP.1, fun t ht => ih (hP.2 t ht)⟩

/-- Under an invariant, two step properties that agree on every enabled step
agree on whole runs. -/
theorem alwaysStep_congr {Inv : σ → Prop} {P C : σ → α → Prop}
    (hstep : ∀ s a t, Inv s → step s a = some t → Inv t)
    (hPC : ∀ s a t, Inv s → step s a = some t → (P s a ↔ C s a))
    {s : σ} {as : List α} (hs : Inv s) :
    AlwaysStep step P s as ↔ AlwaysStep step C s as := by
  induction as generalizing s with
  | nil => exact Iff.rfl
  | cons a as ih =>
      simp only [alwaysStep_cons]
      refine forall_congr' fun t => forall_congr' ?_
      intro ht
      exact and_congr (hPC s a t hs ht) (ih (hstep s a t hs ht))

/-- Under an invariant, a state property that each step preserves exactly when
the step meets `C` holds in every state of a run exactly when every step of
the run meets `C`. -/
theorem alwaysState_iff_alwaysStep {Inv P : σ → Prop} {C : σ → α → Prop}
    (hstep : ∀ s a t, Inv s → step s a = some t → Inv t)
    (hPC : ∀ s a t, Inv s → P s → step s a = some t → (P t ↔ C s a))
    {s : σ} {as : List α} (hs : Inv s) (hP : P s) :
    AlwaysState step P s as ↔ AlwaysStep step C s as := by
  induction as generalizing s with
  | nil => simpa using hP
  | cons a as ih =>
      rw [alwaysState_cons, alwaysStep_cons]
      constructor
      · rintro ⟨-, h⟩ t ht
        have hPt : P t := (h t ht).head
        exact ⟨(hPC s a t hs hP ht).mp hPt, (ih (hstep s a t hs ht) hPt).mp (h t ht)⟩
      · intro h
        refine ⟨hP, ?_⟩
        intro t ht
        obtain ⟨hC, hCs⟩ := h t ht
        have hPt : P t := (hPC s a t hs hP ht).mpr hC
        exact (ih (hstep s a t hs ht) hPt).mpr hCs

end StepSystem
