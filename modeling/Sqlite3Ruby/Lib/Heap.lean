import Mathlib.Data.Finset.Card
import Mathlib.Data.Finset.Union
import Mathlib.Order.Iterate

/-!
# Reachable objects

An object is reachable from the roots through the references of the objects on the way.
A collector marks the roots and then, round after round, what is referred to from what it
has marked; in a finite heap it comes to the reachable objects.
-/

namespace Heap

variable {ι α : Type*} (refs : α → List ι)

inductive Reachable (objects : ι → Option α) (roots : List ι) : ι → Prop
  | root {o : ι} (h : o ∈ roots) : Reachable objects roots o
  | ref {o t : ι} {a : α} (ho : Reachable objects roots o) (ha : objects o = some a)
      (ht : t ∈ refs a) : Reachable objects roots t

variable {refs} {objects objects' : ι → Option α} {roots roots' : List ι}

/-- A property of the roots that the references hand on is one of all reachable objects. -/
theorem Reachable.closed {p : ι → Prop} (hroots : ∀ o ∈ roots, p o)
    (hrefs : ∀ o a, p o → objects o = some a → ∀ t ∈ refs a, p t) {o : ι}
    (h : Reachable refs objects roots o) : p o := by
  induction h with
  | root h => exact hroots _ h
  | ref _ ha ht ih => exact hrefs _ _ ih ha _ ht

/-- Nothing new is reachable after a change through which only reachable objects are
referred to. -/
theorem Reachable.of_change
    (hroots : ∀ o ∈ roots', Reachable refs objects roots o)
    (hrefs : ∀ o a, Reachable refs objects roots o → objects' o = some a →
      ∀ t ∈ refs a, Reachable refs objects roots t)
    {o : ι} (h : Reachable refs objects' roots' o) : Reachable refs objects roots o :=
  h.closed hroots hrefs

section Marks

variable [DecidableEq ι]

/-- An object that is not reachable can be taken away. -/
theorem reachable_update_none_iff {o : ι} (ho : ¬ Reachable refs objects roots o) {t : ι} :
    Reachable refs (Function.update objects o none) roots t ↔
      Reachable refs objects roots t := by
  constructor
  · refine Reachable.of_change (fun o h => .root h) fun o' a ho' ha t ht => ?_
    by_cases heq : o' = o
    · exact absurd (heq ▸ ho') ho
    · exact .ref ho' (Function.update_of_ne heq none objects ▸ ha) ht
  · intro h
    induction h with
    | root h => exact .root h
    | ref ho' ha ht ih =>
        have hne : _ ≠ o := fun heq => ho (heq ▸ ho')
        exact .ref ih ((Function.update_of_ne hne none objects).trans ha) ht

/-- What an object refers to. -/
def children (refs : α → List ι) (objects : ι → Option α) (o : ι) : Finset ι :=
  (((objects o).map refs).getD []).toFinset

theorem mem_children_iff {o t : ι} :
    t ∈ children refs objects o ↔ ∃ a, objects o = some a ∧ t ∈ refs a := by
  rw [children]
  cases objects o <;> simp

def markRound (refs : α → List ι) (objects : ι → Option α) (marked : Finset ι) : Finset ι :=
  marked ∪ marked.biUnion (children refs objects)

/-- What is marked after so many rounds. -/
def mark (refs : α → List ι) (objects : ι → Option α) (roots : List ι) (rounds : ℕ) : Finset ι :=
  (markRound refs objects)^[rounds] roots.toFinset

/-- A function that adds elements of a finite set comes to an end in as many rounds as the
set has elements. -/
theorem iterate_fixed {all : Finset ι} {f : Finset ι → Finset ι} (hadds : ∀ s, s ⊆ f s)
    (hall : ∀ s ⊆ all, f s ⊆ all) (rounds : ℕ) {s : Finset ι} (hs : s ⊆ all)
    (hrounds : all.card ≤ s.card + rounds) : f (f^[rounds] s) = f^[rounds] s := by
  induction rounds generalizing s with
  | zero =>
      obtain rfl : s = all := Finset.eq_of_subset_of_card_le hs hrounds
      exact Finset.Subset.antisymm (hall s hs) (hadds s)
  | succ rounds ih =>
      by_cases hfixed : f s = s
      · rw [Function.iterate_fixed hfixed, hfixed]
      · have hlt : s.card < (f s).card :=
          Finset.card_lt_card ((hadds s).ssubset_of_ne (Ne.symm hfixed))
        rw [Function.iterate_succ_apply]
        exact ih (hall s hs) (by omega)

/-- In a finite heap, what is marked in the end is what is reachable. -/
theorem mem_mark_iff {all : Finset ι} (hroots : ∀ o ∈ roots, o ∈ all)
    (hrefs : ∀ o a, objects o = some a → ∀ t ∈ refs a, t ∈ all) {o : ι} :
    o ∈ mark refs objects roots all.card ↔ Reachable refs objects roots o := by
  have hadds (s : Finset ι) : s ⊆ markRound refs objects s := Finset.subset_union_left
  constructor
  · have hsound (rounds : ℕ) : ∀ o ∈ mark refs objects roots rounds,
        Reachable refs objects roots o := by
      induction rounds with
      | zero =>
          intro o ho
          exact .root (List.mem_toFinset.mp ho)
      | succ rounds ih =>
          intro o ho
          rw [mark, Function.iterate_succ_apply', markRound, Finset.mem_union,
            Finset.mem_biUnion] at ho
          rcases ho with ho | ⟨o', ho', hchild⟩
          · exact ih o ho
          · obtain ⟨a, ha, ht⟩ := mem_children_iff.mp hchild
            exact .ref (ih o' ho') ha ht
    exact hsound all.card o
  · have hall : ∀ s ⊆ all, markRound refs objects s ⊆ all := by
      intro s hs
      refine Finset.union_subset hs (Finset.biUnion_subset.mpr fun o _ t ht => ?_)
      obtain ⟨a, ha, ht⟩ := mem_children_iff.mp ht
      exact hrefs o a ha t ht
    have hstart : roots.toFinset ⊆ all := fun o ho => hroots o (List.mem_toFinset.mp ho)
    have hfixed : markRound refs objects (mark refs objects roots all.card) =
        mark refs objects roots all.card :=
      iterate_fixed hadds hall all.card hstart (Nat.le_add_left _ _)
    refine Reachable.closed (fun o ho => ?_) fun o a ho ha t ht => ?_
    · have hmono : roots.toFinset ⊆ mark refs objects roots all.card := by
        exact Function.id_le_iterate_of_id_le hadds all.card roots.toFinset
      exact hmono (List.mem_toFinset.mpr ho)
    · rw [← hfixed, markRound]
      exact Finset.mem_union_right _
        (Finset.mem_biUnion.mpr ⟨o, ho, mem_children_iff.mpr ⟨a, ha, ht⟩⟩)

end Marks

end Heap
