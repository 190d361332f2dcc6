import Sqlite3Ruby.Lib.Objects

/-!
# Objects that belong to tasks

A task that starts with nothing gets to objects of its own only: what it makes is its own, and
it can write references to nothing else into it. Tasks with objects apart go on with objects
apart, in any order.

## Implementation notes

A task owns an object when it was the last to write each of its fields. This is what the marks of
the heap say, so that ownership needs no table beside it.
-/

namespace Objects

variable {κ ν ω γ : Type*}

/-- Each field of the object was written last by the task. -/
def Heap.OwnedBy (h : Heap κ ν γ) (task : γ) (r : Ref) : Prop :=
  r < h.next ∧ ∀ k, h.writer r k = some task

/-- What the fields of the objects in `P` refer to is in `P`. -/
def Heap.ClosedIn (h : Heap κ ν γ) (P : Ref → Prop) : Prop :=
  ∀ r k s, P r → h.field r k = .ref s → P s

/-- What a task owns refers to nothing but what it owns. -/
def Heap.Separated (h : Heap κ ν γ) : Prop := ∀ task, h.ClosedIn (h.OwnedBy task)

/-- What the first heap has of a task, the second one has too. -/
def Heap.Keeps (h h' : Heap κ ν γ) : Prop := ∀ task r, h.OwnedBy task r → h'.OwnedBy task r

theorem Heap.Keeps.trans {h h' h'' : Heap κ ν γ} (hfirst : h.Keeps h') (hsecond : h'.Keeps h'') :
    h.Keeps h'' := fun task r hr => hsecond task r (hfirst task r hr)

/-- Nothing is owned in the empty heap. -/
theorem Heap.separated_of_empty {h : Heap κ ν γ} (hempty : h.next = 0) : h.Separated := by
  rintro task r k s ⟨hlt, -⟩ -
  exact absurd (hempty ▸ hlt) (Nat.not_lt_zero r)

/-! ## One instruction -/

section Instructions

variable {h : Heap κ ν γ} {task : γ}

theorem Heap.keeps_add (h : Heap κ ν γ) (task : γ) (fields : κ → Field ν Ref) :
    h.Keeps (h.add task fields) := by
  rintro task' r ⟨hlt, hwriter⟩
  refine ⟨Nat.lt_succ_of_lt hlt, fun k => ?_⟩
  simp only [add, Function.update_of_ne hlt.ne]
  exact hwriter k

/-- A new object belongs to the task that makes it. -/
theorem Heap.ownedBy_add (h : Heap κ ν γ) (task : γ) (fields : κ → Field ν Ref) :
    (h.add task fields).OwnedBy task h.next := by
  refine ⟨Nat.lt_succ_self _, fun k => ?_⟩
  simp only [add, Function.update_self]

theorem Heap.Separated.add (hseparated : h.Separated) {fields : κ → Field ν Ref}
    (hfields : ∀ k s, fields k = .ref s → h.OwnedBy task s) : (h.add task fields).Separated := by
  rintro task' r k s ⟨hlt, hwriter⟩ hfield
  by_cases hnew : r = h.next
  · subst hnew
    have htask : task = task' := by
      simpa only [Heap.add, Function.update_self, Option.some.injEq] using hwriter k
    simp only [Heap.add, Function.update_self] at hfield
    exact htask ▸ h.keeps_add task fields task s (hfields k s hfield)
  · have hold : h.OwnedBy task' r := by
      refine ⟨lt_of_le_of_ne (Nat.le_of_lt_succ hlt) hnew, fun k => ?_⟩
      simpa only [Heap.add, Function.update_of_ne hnew] using hwriter k
    simp only [Heap.add, Function.update_of_ne hnew] at hfield
    exact h.keeps_add task fields task' s (hseparated task' r k s hold hfield)

variable [DecidableEq κ]

theorem Heap.keeps_set {r : Ref} (hr : h.OwnedBy task r) (k : κ) (value : Field ν Ref) :
    h.Keeps (h.set task r k value) := by
  rintro task' r' ⟨hlt, hwriter⟩
  refine ⟨hlt, fun k' => ?_⟩
  by_cases hobject : r' = r
  · subst hobject
    have htask : task = task' := Option.some.inj ((hr.2 k).symm.trans (hwriter k))
    by_cases hfield : k' = k
    · simp only [set, hfield, Function.update_self, htask]
    · simp only [set, Function.update_self, Function.update_of_ne hfield]
      exact hwriter k'
  · simp only [set, Function.update_of_ne hobject]
    exact hwriter k'

theorem Heap.Separated.set (hseparated : h.Separated) {r : Ref} (hr : h.OwnedBy task r) (k : κ)
    {value : Field ν Ref} (hvalue : ∀ s, value = .ref s → h.OwnedBy task s) :
    (h.set task r k value).Separated := by
  rintro task' r' k' s ⟨hlt, hwriter⟩ hfield
  have hkeeps := Heap.keeps_set hr k value
  by_cases hobject : r' = r
  · subst hobject
    by_cases hsame : k' = k
    · subst hsame
      have htask : task = task' := by
        simpa only [Heap.set, Function.update_self, Option.some.injEq] using hwriter k'
      simp only [Heap.set, Function.update_self] at hfield
      exact htask ▸ hkeeps task s (hvalue s hfield)
    · have htask : task = task' := by
        simpa only [Heap.set, Function.update_self, Option.some.injEq] using hwriter k
      simp only [Heap.set, Function.update_self, Function.update_of_ne hsame] at hfield
      exact htask ▸ hkeeps task s (hseparated task r' k' s hr hfield)
  · have hold : h.OwnedBy task' r' := by
      refine ⟨hlt, fun k => ?_⟩
      simpa only [Heap.set, Function.update_of_ne hobject] using hwriter k
    simp only [Heap.set, Function.update_of_ne hobject] at hfield
    exact hkeeps task' s (hseparated task' r' k' s hold hfield)

end Instructions

/-! ## Code -/

section Variables

variable {h : Heap κ ν γ} {task : γ} {n : ℕ} {vars : Fin n → Ref}

theorem ownedBy_cons {r : Ref} (hr : h.OwnedBy task r) (hvars : ∀ i, h.OwnedBy task (vars i))
    (i : Fin (n + 1)) : h.OwnedBy task ((Fin.cons r vars : Fin (n + 1) → Ref) i) := by
  cases i using Fin.cases with
  | zero => exact hr
  | succ i => exact hvars i

theorem ownedBy_of_map {δ : Type*} (hvars : ∀ i, h.OwnedBy task (vars i)) {field : Field δ (Fin n)}
    {s : Ref} (hs : field.map vars = .ref s) : h.OwnedBy task s := by
  cases field with
  | data v => cases hs
  | ref i =>
      cases hs
      exact hvars i

end Variables

variable [DecidableEq κ]

/-- Code that starts with objects of its task comes to objects of its task, and keeps the tasks
apart. -/
theorem Code.run_separated (task : γ) {n : ℕ} (code : Code κ ν ω n) {vars : Fin n → Ref}
    {h : Heap κ ν γ} (hseparated : h.Separated) (hvars : ∀ i, h.OwnedBy task (vars i)) :
    (code.run task vars h).2.Separated ∧ h.Keeps (code.run task vars h).2 ∧
      ∀ r, (code.run task vars h).1 = .ref r → (code.run task vars h).2.OwnedBy task r := by
  induction code generalizing h with
  | done result =>
      exact ⟨hseparated, fun _ _ hr => hr, fun r => ownedBy_of_map hvars⟩
  | get x k data ref ihdata ihref =>
      rw [run]
      cases hfield : h.field (vars x) k with
      | data v => exact ihdata v hseparated hvars
      | ref s =>
          have hs : h.OwnedBy task s := hseparated task (vars x) k s (hvars x) hfield
          exact ihref hseparated (ownedBy_cons hs hvars)
  | set x k value rest ih =>
      have hkeeps := Heap.keeps_set (hvars x) k (value.map vars)
      obtain ⟨hseparated', hkeeps', hresult⟩ :=
        ih (hseparated.set (hvars x) k fun s => ownedBy_of_map hvars)
          fun i => hkeeps task _ (hvars i)
      exact ⟨hseparated', hkeeps.trans hkeeps', hresult⟩
  | new fields rest ih =>
      have hfields (k : κ) (s : Ref) (hk : (.data (fields k) : Field ν Ref) = .ref s) :
          h.OwnedBy task s := by cases hk
      have hkeeps := h.keeps_add task fun k => .data (fields k)
      obtain ⟨hseparated', hkeeps', hresult⟩ := ih (hseparated.add hfields)
        (ownedBy_cons (h.ownedBy_add task _) fun i => hkeeps task _ (hvars i))
      exact ⟨hseparated', hkeeps.trans hkeeps', hresult⟩
  | copy x rest ih =>
      have hkeeps := h.keeps_add task (h.field (vars x))
      obtain ⟨hseparated', hkeeps', hresult⟩ :=
        ih (hseparated.add fun k s => hseparated task (vars x) k s (hvars x))
          (ownedBy_cons (h.ownedBy_add task _) fun i => hkeeps task _ (hvars i))
      exact ⟨hseparated', hkeeps.trans hkeeps', hresult⟩
  | same x y rest ih => exact ih _ hseparated hvars

/-- Code that starts with objects of its task reads only what the task has written. -/
theorem Code.reads_of_ownedBy {own : Option γ → Prop} {task : γ} (hown : own (some task)) {n : ℕ}
    (code : Code κ ν ω n) {vars : Fin n → Ref} {h : Heap κ ν γ} (hseparated : h.Separated)
    (hvars : ∀ i, h.OwnedBy task (vars i)) : code.Reads own task vars h := by
  induction code generalizing h with
  | done result => trivial
  | get x k data ref ihdata ihref =>
      rw [Reads]
      refine ⟨(hvars x).2 k ▸ hown, ?_⟩
      cases hfield : h.field (vars x) k with
      | data v => exact ihdata v hseparated hvars
      | ref s =>
          have hs : h.OwnedBy task s := hseparated task (vars x) k s (hvars x) hfield
          exact ihref hseparated (ownedBy_cons hs hvars)
  | set x k value rest ih =>
      have hkeeps := Heap.keeps_set (hvars x) k (value.map vars)
      exact ih (hseparated.set (hvars x) k fun s => ownedBy_of_map hvars) fun i => hkeeps task _ (hvars i)
  | new fields rest ih =>
      have hfields (k : κ) (s : Ref) (hk : (.data (fields k) : Field ν Ref) = .ref s) :
          h.OwnedBy task s := by cases hk
      have hkeeps := h.keeps_add task fun k => .data (fields k)
      exact ih (hseparated.add hfields)
        (ownedBy_cons (h.ownedBy_add task _) fun i => hkeeps task _ (hvars i))
  | copy x rest ih =>
      have hkeeps := h.keeps_add task (h.field (vars x))
      refine ⟨fun k => (hvars x).2 k ▸ hown, ?_⟩
      exact ih (hseparated.add fun k s => hseparated task (vars x) k s (hvars x))
        (ownedBy_cons (h.ownedBy_add task _) fun i => hkeeps task _ (hvars i))
  | same x y rest ih => exact ih _ hseparated hvars

end Objects
