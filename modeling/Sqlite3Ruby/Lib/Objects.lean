import Mathlib.Data.Fin.Tuple.Basic
import Mathlib.Logic.Function.Basic
import Mathlib.Logic.Relation

/-!
# Code that works on objects

Objects have fields, which hold data or refer to objects. Code has objects in its
variables and gets to other ones through fields only; of two variables it can tell whether
they have the same object. On heaps that look alike from its variables it does the same.

## Implementation notes

Each field is marked with the task that wrote it last, which the code cannot read. Heaps
look alike for a task where the fields that it may read do.
-/

namespace Objects

abbrev Ref := ℕ

/-- What a field holds. -/
inductive Field (ν ρ : Type*)
  | data (v : ν)
  | ref (r : ρ)

/-- The objects, numbered in the order they were made. -/
structure Heap (κ ν γ : Type*) where
  field : Ref → κ → Field ν Ref
  writer : Ref → κ → Option γ
  next : Ref

/-- Code with `n` variables. A new one becomes number 0. -/
inductive Code (κ ν ω : Type*) : ℕ → Type _
  | done {n : ℕ} (result : Field ω (Fin n)) : Code κ ν ω n
  | get {n : ℕ} (x : Fin n) (k : κ) (data : ν → Code κ ν ω n) (ref : Code κ ν ω (n + 1)) :
      Code κ ν ω n
  | set {n : ℕ} (x : Fin n) (k : κ) (value : Field ν (Fin n)) (rest : Code κ ν ω n) : Code κ ν ω n
  | new {n : ℕ} (fields : κ → ν) (rest : Code κ ν ω (n + 1)) : Code κ ν ω n
  | copy {n : ℕ} (x : Fin n) (rest : Code κ ν ω (n + 1)) : Code κ ν ω n
  | same {n : ℕ} (x y : Fin n) (rest : Bool → Code κ ν ω n) : Code κ ν ω n

variable {κ ν ω γ : Type*} {ρ σ τ : Type*}

def Field.map (f : ρ → σ) : Field ν ρ → Field ν σ
  | .data v => .data v
  | .ref r => .ref (f r)

/-! ## Runs -/

namespace Heap

/-- An object is added. -/
def add (h : Heap κ ν γ) (task : γ) (fields : κ → Field ν Ref) : Heap κ ν γ where
  field := Function.update h.field h.next fields
  writer := Function.update h.writer h.next fun _ => some task
  next := h.next + 1

/-- What is referred to exists. -/
def Closed (h : Heap κ ν γ) : Prop :=
  ∀ r k s, r < h.next → h.field r k = .ref s → s < h.next

/-- A field of the first object refers to the second. -/
def Refers (h : Heap κ ν γ) (r s : Ref) : Prop := ∃ k, h.field r k = .ref s

variable [DecidableEq κ]

def set (h : Heap κ ν γ) (task : γ) (r : Ref) (k : κ) (value : Field ν Ref) : Heap κ ν γ where
  field := Function.update h.field r (Function.update (h.field r) k value)
  writer := Function.update h.writer r (Function.update (h.writer r) k (some task))
  next := h.next

end Heap

namespace Code

variable [DecidableEq κ]

/-- What a task comes to with the code. -/
def run (task : γ) : {n : ℕ} → Code κ ν ω n → (Fin n → Ref) → Heap κ ν γ → Field ω Ref × Heap κ ν γ
  | _, done result, vars, h => (result.map vars, h)
  | _, get x k data ref, vars, h =>
      match h.field (vars x) k with
      | .data v => (data v).run task vars h
      | .ref r => ref.run task (Fin.cons r vars) h
  | _, set x k value rest, vars, h => rest.run task vars (h.set task (vars x) k (value.map vars))
  | _, new fields rest, vars, h =>
      rest.run task (Fin.cons h.next vars) (h.add task fun k => .data (fields k))
  | _, copy x rest, vars, h => rest.run task (Fin.cons h.next vars) (h.add task (h.field (vars x)))
  | _, same x y rest, vars, h => (rest (vars x = vars y)).run task vars h

/-- Every field that is read was written last by a task that `own` allows. -/
def Reads (own : Option γ → Prop) (task : γ) :
    {n : ℕ} → Code κ ν ω n → (Fin n → Ref) → Heap κ ν γ → Prop
  | _, done _, _, _ => True
  | _, get x k data ref, vars, h =>
      own (h.writer (vars x) k) ∧
        match h.field (vars x) k with
        | .data v => (data v).Reads own task vars h
        | .ref r => ref.Reads own task (Fin.cons r vars) h
  | _, set x k value rest, vars, h =>
      rest.Reads own task vars (h.set task (vars x) k (value.map vars))
  | _, new fields rest, vars, h =>
      rest.Reads own task (Fin.cons h.next vars) (h.add task fun k => .data (fields k))
  | _, copy x rest, vars, h =>
      (∀ k, own (h.writer (vars x) k)) ∧
        rest.Reads own task (Fin.cons h.next vars) (h.add task (h.field (vars x)))
  | _, same x y rest, vars, h => (rest (vars x = vars y)).Reads own task vars h

end Code

/-! ## Heaps that look alike -/

/-- The same data, or related objects. -/
inductive Field.Related (R : ρ → σ → Prop) : Field ν ρ → Field ν σ → Prop
  | data (v : ν) : Related R (.data v) (.data v)
  | ref {r : ρ} {s : σ} (h : R r s) : Related R (.ref r) (.ref s)

namespace Field.Related

variable {R R' : ρ → σ → Prop}

theorem mono (hle : ∀ r s, R r s → R' r s) {f : Field ν ρ} {f' : Field ν σ} (h : Related R f f') :
    Related R' f f' := by
  cases h with
  | data v => exact .data v
  | ref hrs => exact .ref (hle _ _ hrs)

theorem comp {S : σ → τ → Prop} {f : Field ν ρ} {f' : Field ν σ} {f'' : Field ν τ}
    (h : Related R f f') (h' : Related S f' f'') :
    Related (fun r t => ∃ s, R r s ∧ S s t) f f'' := by
  cases h with
  | data v =>
      cases h' with
      | data => exact .data v
  | ref hrs =>
      cases h' with
      | ref hst => exact .ref ⟨_, hrs, hst⟩

theorem map {ι : Type*} {f : ι → ρ} {f' : ι → σ} (h : ∀ i, R (f i) (f' i)) (field : Field ν ι) :
    Related R (field.map f) (field.map f') := by
  cases field with
  | data v => exact .data v
  | ref i => exact .ref (h i)

end Field.Related

/-- The objects of the heaps correspond to one another, and so do the fields that `own`
allows to read. -/
structure Similar (own : Option γ → Prop) (R : Ref → Ref → Prop) (h h' : Heap κ ν γ) : Prop where
  lt : ∀ r s, R r s → r < h.next ∧ s < h'.next
  same_iff : ∀ r s r' s', R r s → R r' s' → (r = r' ↔ s = s')
  field : ∀ r s, R r s → ∀ k, own (h.writer r k) → (h.field r k).Related R (h'.field s k)

/-- One more pair of objects. -/
def extend (R : Ref → Ref → Prop) (r₀ s₀ : Ref) (r s : Ref) : Prop := R r s ∨ r = r₀ ∧ s = s₀

theorem related_cons {R : Ref → Ref → Prop} {r s : Ref} (hrs : R r s) {n : ℕ}
    {vars vars' : Fin n → Ref} (hvars : ∀ i, R (vars i) (vars' i)) (i : Fin (n + 1)) :
    R ((Fin.cons r vars : Fin (n + 1) → Ref) i) ((Fin.cons s vars' : Fin (n + 1) → Ref) i) := by
  cases i using Fin.cases with
  | zero => exact hrs
  | succ i => exact hvars i

namespace Similar

variable {own : Option γ → Prop} {R : Ref → Ref → Prop} {h h' a a' : Heap κ ν γ}

/-- A heap looks like itself. -/
theorem refl (own : Option γ → Prop) (hclosed : h.Closed) :
    Similar own (fun r s => r = s ∧ r < h.next) h h := by
  constructor
  · rintro r s ⟨rfl, hlt⟩
    exact ⟨hlt, hlt⟩
  · rintro r s r' s' ⟨rfl, -⟩ ⟨rfl, -⟩
    exact Iff.rfl
  · rintro r s ⟨rfl, hlt⟩ k -
    cases hfield : h.field r k with
    | data v => exact .data v
    | ref t => exact .ref ⟨rfl, hclosed r k t hlt hfield⟩

theorem comp {S : Ref → Ref → Prop} (hfirst : Similar own R h a)
    (hsecond : Similar (fun _ => True) S a a') :
    Similar own (fun r t => ∃ s, R r s ∧ S s t) h a' := by
  constructor
  · rintro r t ⟨s, hrs, hst⟩
    exact ⟨(hfirst.lt r s hrs).1, (hsecond.lt s t hst).2⟩
  · rintro r t r' t' ⟨s, hrs, hst⟩ ⟨s', hrs', hst'⟩
    exact (hfirst.same_iff r s r' s' hrs hrs').trans (hsecond.same_iff s t s' t' hst hst')
  · rintro r t ⟨s, hrs, hst⟩ k hown
    exact (hfirst.field r s hrs k hown).comp (hsecond.field s t hst k trivial)

/-- An object is added on both sides. -/
theorem add (hsim : Similar own R h a) (task task' : γ) {fields fields' : κ → Field ν Ref}
    (hfields : ∀ k, (fields k).Related R (fields' k)) :
    Similar own (extend R h.next a.next) (h.add task fields) (a.add task' fields') := by
  have hle (r s : Ref) (hrs : R r s) : extend R h.next a.next r s := .inl hrs
  constructor
  · rintro r s (hrs | ⟨rfl, rfl⟩)
    · obtain ⟨hr, hs⟩ := hsim.lt r s hrs
      exact ⟨Nat.lt_succ_of_lt hr, Nat.lt_succ_of_lt hs⟩
    · exact ⟨Nat.lt_succ_self _, Nat.lt_succ_self _⟩
  · rintro r s r' s' (hrs | ⟨rfl, rfl⟩) (hrs' | ⟨rfl, rfl⟩)
    · exact hsim.same_iff r s r' s' hrs hrs'
    · obtain ⟨hr, hs⟩ := hsim.lt r s hrs
      exact iff_of_false hr.ne hs.ne
    · obtain ⟨hr, hs⟩ := hsim.lt r' s' hrs'
      exact iff_of_false hr.ne' hs.ne'
    · exact iff_of_true rfl rfl
  · rintro r s (hrs | ⟨rfl, rfl⟩) k hown
    · obtain ⟨hr, hs⟩ := hsim.lt r s hrs
      simp only [Heap.add, Function.update_of_ne hr.ne, Function.update_of_ne hs.ne] at hown ⊢
      exact (hsim.field r s hrs k hown).mono hle
    · simp only [Heap.add, Function.update_self]
      exact (hfields k).mono hle

/-- Another task adds an object. -/
theorem add_left (hsim : Similar own R h a) (task : γ) (fields : κ → Field ν Ref) :
    Similar own R (h.add task fields) a := by
  refine ⟨fun r s hrs => ?_, hsim.same_iff, fun r s hrs k hown => ?_⟩
  · obtain ⟨hr, hs⟩ := hsim.lt r s hrs
    exact ⟨Nat.lt_succ_of_lt hr, hs⟩
  · have hr := (hsim.lt r s hrs).1
    simp only [Heap.add, Function.update_of_ne hr.ne] at hown ⊢
    exact hsim.field r s hrs k hown

variable [DecidableEq κ]

/-- Corresponding fields are written. -/
theorem set (hsim : Similar own R h a) (task task' : γ) {r s : Ref} (hrs : R r s) (k : κ)
    {value value' : Field ν Ref} (hvalue : value.Related R value') :
    Similar own R (h.set task r k value) (a.set task' s k value') := by
  refine ⟨hsim.lt, hsim.same_iff, fun r' s' hrs' k' hown => ?_⟩
  have hsame := hsim.same_iff r' s' r s hrs' hrs
  simp only [Heap.set] at hown ⊢
  by_cases hr : r' = r
  · obtain rfl := hr
    obtain rfl := hsame.mp rfl
    simp only [Function.update_self] at hown ⊢
    by_cases hk : k' = k
    · obtain rfl := hk
      simpa only [Function.update_self] using hvalue
    · simp only [Function.update_of_ne hk] at hown ⊢
      exact hsim.field r' s' hrs' k' hown
  · simp only [Function.update_of_ne hr, Function.update_of_ne (hsame.not.mp hr)] at hown ⊢
    exact hsim.field r' s' hrs' k' hown

/-- Another task writes a field. -/
theorem set_left (hsim : Similar own R h a) {task : γ} (htask : ¬ own (some task)) (r : Ref) (k : κ)
    (value : Field ν Ref) : Similar own R (h.set task r k value) a := by
  refine ⟨hsim.lt, hsim.same_iff, fun r' s' hrs' k' hown => ?_⟩
  simp only [Heap.set] at hown ⊢
  by_cases hr : r' = r
  · obtain rfl := hr
    simp only [Function.update_self] at hown ⊢
    by_cases hk : k' = k
    · obtain rfl := hk
      rw [Function.update_self] at hown
      exact absurd hown htask
    · simp only [Function.update_of_ne hk] at hown ⊢
      exact hsim.field r' s' hrs' k' hown
  · simp only [Function.update_of_ne hr] at hown ⊢
    exact hsim.field r' s' hrs' k' hown

/-- The same code comes to the same on heaps that look alike, as long as it reads only what
it may. -/
theorem run (hsim : Similar own R h a) (task task' : γ) {n : ℕ} (code : Code κ ν ω n)
    {vars vars' : Fin n → Ref} (hvars : ∀ i, R (vars i) (vars' i))
    (hreads : code.Reads own task vars h) :
    ∃ R' : Ref → Ref → Prop, (∀ r s, R r s → R' r s) ∧
      Similar own R' (code.run task vars h).2 (code.run task' vars' a).2 ∧
        (code.run task vars h).1.Related R' (code.run task' vars' a).1 := by
  induction code generalizing R h a with
  | done result => exact ⟨R, fun _ _ hrs => hrs, hsim, .map hvars result⟩
  | get x k data ref ihdata ihref =>
      rw [Code.Reads] at hreads
      obtain ⟨hown, hreads⟩ := hreads
      have hfield := hsim.field _ _ (hvars x) k hown
      simp only [Code.run]
      generalize h.field (vars x) k = f at hfield hreads
      generalize a.field (vars' x) k = f' at hfield
      cases hfield with
      | data v => exact ihdata v hsim hvars hreads
      | ref hrs => exact ihref hsim (related_cons hrs hvars) hreads
  | set x k value rest ih =>
      exact ih (hsim.set task task' (hvars x) k (.map hvars value)) hvars hreads
  | new fields rest ih =>
      have hadd := hsim.add task task' fun k => .data (fields k)
      obtain ⟨R', hle, hrun⟩ :=
        ih hadd (related_cons (.inr ⟨rfl, rfl⟩) fun i => .inl (hvars i)) hreads
      exact ⟨R', fun r s hrs => hle r s (.inl hrs), hrun⟩
  | copy x rest ih =>
      obtain ⟨hown, hreads⟩ := hreads
      have hadd := hsim.add task task' fun k => hsim.field _ _ (hvars x) k (hown k)
      obtain ⟨R', hle, hrun⟩ :=
        ih hadd (related_cons (.inr ⟨rfl, rfl⟩) fun i => .inl (hvars i)) hreads
      exact ⟨R', fun r s hrs => hle r s (.inl hrs), hrun⟩
  | same x y rest ih =>
      have hsame : (vars x = vars y) ↔ (vars' x = vars' y) :=
        hsim.same_iff _ _ _ _ (hvars x) (hvars y)
      have hreads' : (rest (decide (vars x = vars y))).Reads own task vars h := hreads
      simp only [Code.run, ← decide_eq_decide.mpr hsame]
      exact ih _ hsim hvars hreads'

/-- What another task does changes no field that may be read. -/
theorem run_left (hsim : Similar own R h a) {task : γ} (htask : ¬ own (some task)) {n : ℕ}
    (code : Code κ ν ω n) (vars : Fin n → Ref) : Similar own R (code.run task vars h).2 a := by
  induction code generalizing h with
  | done result => exact hsim
  | get x k data ref ihdata ihref =>
      simp only [Code.run]
      cases h.field (vars x) k with
      | data v => exact ihdata v hsim vars
      | ref r => exact ihref hsim _
  | set x k value rest ih => exact ih (hsim.set_left htask _ k _) vars
  | new fields rest ih => exact ih (hsim.add_left task _) _
  | copy x rest ih => exact ih (hsim.add_left task _) _
  | same x y rest ih => exact ih _ hsim vars

end Similar

/-! ## Copies -/

/-- A copy with the fields of an object to which nothing leads back looks like the object. -/
theorem copy_similar (h : Heap κ ν γ) (task : γ) {r : Ref} (hclosed : h.Closed) (hr : r < h.next)
    (hback : ¬ Relation.TransGen h.Refers r r) :
    Similar (fun _ => True) (extend (fun s s' => s = s' ∧ Relation.TransGen h.Refers r s) h.next r)
      (h.add task (h.field r)) h := by
  have hlt (s : Ref) (hs : Relation.TransGen h.Refers r s) : s < h.next := by
    induction hs with
    | single href => exact hclosed _ _ _ hr href.choose_spec
    | tail hs href ih => exact hclosed _ _ _ ih href.choose_spec
  constructor
  · rintro s s' (⟨rfl, hs⟩ | ⟨rfl, rfl⟩)
    · exact ⟨Nat.lt_succ_of_lt (hlt s hs), hlt s hs⟩
    · exact ⟨Nat.lt_succ_self _, hr⟩
  · rintro s s' t t' (⟨rfl, hs⟩ | ⟨rfl, rfl⟩) (⟨rfl, ht⟩ | ⟨rfl, rfl⟩)
    · exact Iff.rfl
    · refine iff_of_false (hlt s hs).ne ?_
      rintro rfl
      exact hback hs
    · refine iff_of_false (hlt t ht).ne' ?_
      rintro rfl
      exact hback ht
    · exact iff_of_true rfl rfl
  · rintro s s' (⟨rfl, hs⟩ | ⟨rfl, rfl⟩) k -
    · have hfield : (h.add task (h.field r)).field s k = h.field s k := by
        simp only [Heap.add, Function.update_of_ne (hlt s hs).ne]
      rw [hfield]
      cases hk : h.field s k with
      | data v => exact .data v
      | ref t => exact .ref (.inl ⟨rfl, hs.tail ⟨k, hk⟩⟩)
    · have hfield : (h.add task (h.field s')).field h.next k = h.field s' k := by
        simp only [Heap.add, Function.update_self]
      rw [hfield]
      cases hk : h.field s' k with
      | data v => exact .data v
      | ref t => exact .ref (.inl ⟨rfl, .single ⟨k, hk⟩⟩)

end Objects
