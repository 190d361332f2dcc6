import Mathlib.Logic.Function.Basic

/-!
# The owner of a lock

Threads are the values of a function from thread names. The owner of a lock is
kept in one place, while each thread knows by itself whether it holds the lock.
`OwnedBy` says that the two agree, which also makes the holder unique.
-/

namespace Lock

variable {ι α : Type*}

/-- The owner is the one thread that holds the lock, if there is one. -/
def OwnedBy (holds : α → Prop) (owner : Option ι) (threads : ι → α) : Prop :=
  ∀ t, owner = some t ↔ holds (threads t)

variable {holds : α → Prop} {owner : Option ι} {threads : ι → α}

/-- Two threads that hold the lock are the same thread. -/
theorem OwnedBy.unique (h : OwnedBy holds owner threads) {t u : ι}
    (ht : holds (threads t)) (hu : holds (threads u)) : t = u := by
  have howner : some t = some u := ((h t).mpr ht).symm.trans ((h u).mpr hu)
  exact Option.some.inj howner

theorem ownedBy_none (h : ∀ t, ¬ holds (threads t)) : OwnedBy holds none threads := by
  intro t
  simpa using h t

variable [DecidableEq ι]

/-- A thread that changes without taking or releasing the lock. -/
theorem OwnedBy.update (h : OwnedBy holds owner threads) {t : ι} {x : α}
    (hx : holds x ↔ holds (threads t)) : OwnedBy holds owner (Function.update threads t x) := by
  intro u
  obtain rfl | hu := eq_or_ne u t
  · rw [Function.update_self, hx]
    exact h u
  · rw [Function.update_of_ne hu]
    exact h u

/-- The holder of the lock releases it. -/
theorem OwnedBy.release (h : OwnedBy holds owner threads) {t : ι} {x : α}
    (ht : holds (threads t)) (hx : ¬ holds x) :
    OwnedBy holds none (Function.update threads t x) := by
  apply ownedBy_none
  intro u
  obtain rfl | hu := eq_or_ne u t
  · rwa [Function.update_self]
  · rw [Function.update_of_ne hu]
    exact fun hholds => hu (h.unique hholds ht)

/-- A thread takes the lock while it is free. -/
theorem OwnedBy.take (h : OwnedBy holds none threads) {t : ι} {x : α} (hx : holds x) :
    OwnedBy holds (some t) (Function.update threads t x) := by
  intro u
  obtain rfl | hu := eq_or_ne u t
  · simpa using hx
  · rw [Function.update_of_ne hu, ← h u]
    simpa using Ne.symm hu

end Lock
