import Sqlite3Ruby.Lib.Heap
import Sqlite3Ruby.Lib.StepSystem

/-!
# The collection of wrappers

A `Statement` has a pointer to the context struct of its `Database`, and a `Backup` copies
between the connections of two. What a wrapper refers to is not collected before it;
`deallocate` closes the connection of a collected `Database` and frees its struct.

## Implementation notes

The roots are what the program holds itself. It reads a reference, writes one and calls a
method only of what it holds.
-/

namespace Sqlite3Ruby.Collection

abbrev ObjectId := Nat

inductive Kind
  | database (isOpen : Bool)
  | statement (connection : ObjectId) (isOpen : Bool)
  | backup (dst src : ObjectId) (isOpen : Bool)
  | other

/-- An object, with its references other than the instance variable `@connection`: other
instance variables, the elements of an array, what `database_mark` marks. -/
structure Object where
  kind : Kind
  others : List ObjectId

/-- What the collector follows. A `Backup` has no reference of its own. -/
def Object.references (object : Object) : List ObjectId :=
  match object.kind with
  | .statement connection _ => connection :: object.others
  | _ => object.others

namespace Kind

/-- The databases whose connections a `Statement` or a `Backup` uses. -/
def databases : Kind → List ObjectId
  | statement connection _ => [connection]
  | backup dst src _ => [dst, src]
  | _ => []

/-- It is a `Statement` that is not closed or a `Backup` that is not finished. -/
def isPending : Kind → Bool
  | statement _ isOpen => isOpen
  | backup _ _ isOpen => isOpen
  | _ => false

def isDatabase : Kind → Bool
  | database _ => true
  | _ => false

def isBackup : Kind → Bool
  | backup _ _ _ => true
  | _ => false

/-- After `close` or `finish`. -/
def closed : Kind → Kind
  | database _ => database false
  | statement connection _ => statement connection false
  | backup dst src _ => backup dst src false
  | other => other

end Kind

/-- `deallocated` are the databases whose context structs are freed. -/
structure Memory where
  objects : ObjectId → Option Object
  roots : List ObjectId
  next : ObjectId
  deallocated : List ObjectId

namespace Memory

abbrev Reachable (m : Memory) (o : ObjectId) : Prop :=
  Heap.Reachable Object.references m.objects m.roots o

/-- What the collector marks. -/
def marked (m : Memory) : Finset ObjectId :=
  Heap.mark Object.references m.objects m.roots (Finset.range m.next).card

def allocate (object : Object) (m : Memory) : Memory :=
  { m with
    objects := Function.update m.objects m.next (some object)
    roots := m.next :: m.roots
    next := m.next + 1 }

def set (o : ObjectId) (object : Object) (m : Memory) : Memory :=
  { m with objects := Function.update m.objects o (some object) }

/-- The object is swept; `deallocate` is called for a `Database`. -/
def sweep (o : ObjectId) (object : Object) (m : Memory) : Memory :=
  { m with
    objects := Function.update m.objects o none
    deallocated := if object.kind.isDatabase then o :: m.deallocated else m.deallocated }

/-- An object that the program holds. -/
def held (m : Memory) (o : ObjectId) : Option Object := if o ∈ m.roots then m.objects o else none

/-- A `Database` that the program holds and that is not closed. -/
def heldOpen (m : Memory) (d : ObjectId) : Bool :=
  match (m.held d).map Object.kind with
  | some (.database isOpen) => isOpen
  | _ => false

end Memory

/-- `prepare` and `newBackup` are told whether SQLite makes a statement and a backup; where it
does not, the wrapper has none. -/
inductive Event
  | newDatabase
  | prepare (db : ObjectId) (compiles : Bool)
  | newBackup (dst src : ObjectId) (starts : Bool)
  | newOther (references : List ObjectId)
  | close (o : ObjectId)
  | step (o : ObjectId)
  | refer (o target : ObjectId)
  | unrefer (o target : ObjectId)
  | read (o target : ObjectId)
  | drop (o : ObjectId)
  | collect (o : ObjectId)

open Memory in
def step (m : Memory) : Event → Option Memory
  | .newDatabase => some (m.allocate ⟨.database true, []⟩)
  | .prepare db compiles =>
      if m.heldOpen db then some (m.allocate ⟨.statement db compiles, []⟩) else none
  | .newBackup dst src starts =>
      if m.heldOpen src && m.heldOpen dst then some (m.allocate ⟨.backup dst src starts, []⟩)
      else none
  | .newOther references =>
      if ∀ o ∈ references, o ∈ m.roots then some (m.allocate ⟨.other, references⟩) else none
  | .close o => (m.held o).map fun object => m.set o { object with kind := object.kind.closed }
  | .step o => (m.held o).map fun _ => m
  | .refer o target =>
      if target ∈ m.roots then
        (m.held o).map fun object => m.set o { object with others := target :: object.others }
      else none
  | .unrefer o target =>
      (m.held o).map fun object =>
        m.set o { object with others := object.others.filter (· ≠ target) }
  | .read o target =>
      (m.held o).bind fun object =>
        if target ∈ object.references then some { m with roots := target :: m.roots } else none
  | .drop o => some { m with roots := m.roots.filter (· ≠ o) }
  | .collect o =>
      if o ∈ m.marked then none else (m.objects o).map fun object => m.sweep o object

def start : Memory := ⟨fun _ => none, [], 0, []⟩

/-! ## What is to hold -/

/-- The `Database` is not collected: its connection is not closed by `deallocate`, nor its
context struct freed. -/
def Memory.Kept (m : Memory) (d : ObjectId) : Prop :=
  (∃ object, m.objects d = some object ∧ object.kind.isDatabase = true) ∧ d ∉ m.deallocated

/-- The databases of all that is in use and reachable are kept. -/
def Outlived (m : Memory) : Prop :=
  ∀ o object, m.Reachable o → m.objects o = some object → object.kind.isPending = true →
    ∀ d ∈ object.kind.databases, m.Kept d

/-- When the collector comes to a database of a reachable `Backup` that is not finished, the
database is reachable itself. -/
def Meets (m : Memory) : Event → Prop
  | .collect d => ∀ o object, m.Reachable o → m.objects o = some object →
      object.kind.isBackup = true → object.kind.isPending = true →
      d ∈ object.kind.databases → m.Reachable d
  | _ => True

/-! ## The invariant -/

structure Inv (m : Memory) : Prop where
  roots : ∀ o ∈ m.roots, o < m.next
  objects : ∀ o, (m.objects o).isSome = true → o < m.next
  references : ∀ o object, m.objects o = some object → ∀ t ∈ object.references, t < m.next
  present : ∀ o, m.Reachable o → (m.objects o).isSome = true
  databases : ∀ o object, m.objects o = some object → ∀ d ∈ object.kind.databases,
    d < m.next ∧ ∀ object', m.objects d = some object' → object'.kind.isDatabase = true
  deallocated : ∀ d ∈ m.deallocated, d < m.next ∧ m.objects d = none

namespace Inv

variable {m : Memory}

theorem mem_marked_iff (h : Inv m) {o : ObjectId} : o ∈ m.marked ↔ m.Reachable o :=
  Heap.mem_mark_iff (fun o ho => Finset.mem_range.mpr (h.roots o ho))
    fun o object ho t ht => Finset.mem_range.mpr (h.references o object ho t ht)

/-- A reachable `Database` is kept. -/
theorem kept (h : Inv m) {d : ObjectId} (hd : m.Reachable d)
    (hkind : ∀ object, m.objects d = some object → object.kind.isDatabase = true) : m.Kept d := by
  obtain ⟨object, hobject⟩ := Option.isSome_iff_exists.mp (h.present d hd)
  refine ⟨⟨object, hobject, hkind object hobject⟩, fun hmem => ?_⟩
  have hnone := (h.deallocated d hmem).2
  cases hobject.symm.trans hnone

/-- The connection of a reachable `Statement` is reachable. -/
theorem reachable_of_statement {o d : ObjectId} {object : Object} (ho : m.Reachable o)
    (hobject : m.objects o = some object) (hbackup : object.kind.isBackup = false)
    (hd : d ∈ object.kind.databases) : m.Reachable d := by
  refine .ref ho hobject ?_
  obtain ⟨kind, others⟩ := object
  cases kind with
  | statement connection isOpen =>
      obtain rfl := List.mem_singleton.mp hd
      exact List.mem_cons_self
  | backup dst src isOpen => cases hbackup
  | database isOpen => cases hd
  | other => cases hd

end Inv

/-! ## A new object -/

section Allocate

variable {m : Memory} {object : Object}

theorem allocate_reachable (hrefs : ∀ t ∈ object.references, m.Reachable t) {o : ObjectId}
    (ho : (m.allocate object).Reachable o) : o = m.next ∨ m.Reachable o := by
  refine ho.closed (p := fun o => o = m.next ∨ m.Reachable o) (fun o' ho' => ?_)
    fun o' a ho' ha t ht => ?_
  · rcases List.mem_cons.mp ho' with rfl | hroot
    · exact Or.inl rfl
    · exact Or.inr (.root hroot)
  · by_cases heq : o' = m.next
    · have hself : object = a := by
        simpa [Memory.allocate, heq] using ha
      exact Or.inr (hrefs t (hself ▸ ht))
    · have hold : m.objects o' = some a := by
        simpa [Memory.allocate, Function.update_of_ne heq] using ha
      exact Or.inr (.ref (ho'.resolve_left heq) hold ht)

theorem allocate_objects (object : Object) {o : ObjectId} (h : o ≠ m.next) :
    (m.allocate object).objects o = m.objects o := Function.update_of_ne h _ _

theorem allocate_objects_next (m : Memory) (object : Object) :
    (m.allocate object).objects m.next = some object := Function.update_self ..

theorem Memory.Kept.lt {d : ObjectId} (h : m.Kept d) (hinv : Inv m) : d < m.next := by
  obtain ⟨⟨object', hobject, -⟩, -⟩ := h
  exact hinv.objects d (by simp [hobject])

theorem Memory.Kept.allocate {d : ObjectId} (h : m.Kept d) (hinv : Inv m) :
    (m.allocate object).Kept d := by
  refine ⟨?_, h.2⟩
  rw [allocate_objects object (h.lt hinv).ne]
  exact h.1

theorem Inv.allocate (h : Inv m) (hrefs : ∀ t ∈ object.references, m.Reachable t)
    (hdatabases : ∀ d ∈ object.kind.databases, m.Kept d) : Inv (m.allocate object) where
  roots o ho := by
    rcases List.mem_cons.mp ho with rfl | ho
    · exact Nat.lt_succ_self _
    · exact Nat.lt_succ_of_lt (h.roots o ho)
  objects o ho := by
    by_cases heq : o = m.next
    · exact heq ▸ Nat.lt_succ_self _
    · rw [allocate_objects object heq] at ho
      exact Nat.lt_succ_of_lt (h.objects o ho)
  references o object' ho t ht := by
    by_cases heq : o = m.next
    · rw [heq, allocate_objects_next] at ho
      have hreachable := hrefs t (Option.some.inj ho ▸ ht)
      exact Nat.lt_succ_of_lt (h.objects t (h.present t hreachable))
    · rw [allocate_objects object heq] at ho
      exact Nat.lt_succ_of_lt (h.references o object' ho t ht)
  present o ho := by
    by_cases heq : o = m.next
    · rw [heq, allocate_objects_next]
      rfl
    · rw [allocate_objects object heq]
      exact h.present o ((allocate_reachable hrefs ho).resolve_left heq)
  databases o object' ho d hd := by
    by_cases heq : o = m.next
    · rw [heq, allocate_objects_next] at ho
      have hkept := hdatabases d (Option.some.inj ho ▸ hd)
      refine ⟨Nat.lt_succ_of_lt (hkept.lt h), fun object' hobject' => ?_⟩
      have hkept' : (m.allocate object).Kept d := hkept.allocate h
      obtain ⟨⟨old, hold, hisDatabase⟩, -⟩ := hkept'
      obtain rfl := Option.some.inj (hold.symm.trans hobject')
      exact hisDatabase
    · rw [allocate_objects object heq] at ho
      obtain ⟨hlt, hkind⟩ := h.databases o object' ho d hd
      refine ⟨Nat.lt_succ_of_lt hlt, fun object'' hobject'' => hkind object'' ?_⟩
      rwa [allocate_objects object hlt.ne] at hobject''
  deallocated d hd := by
    obtain ⟨hlt, hnone⟩ := h.deallocated d hd
    exact ⟨Nat.lt_succ_of_lt hlt, (allocate_objects object hlt.ne).trans hnone⟩

theorem Outlived.allocate (houtlived : Outlived m) (h : Inv m)
    (hrefs : ∀ t ∈ object.references, m.Reachable t)
    (hdatabases : ∀ d ∈ object.kind.databases, m.Kept d) : Outlived (m.allocate object) := by
  intro o object' hreachable ho hpending d hd
  by_cases heq : o = m.next
  · rw [heq, allocate_objects_next] at ho
    exact (hdatabases d (Option.some.inj ho ▸ hd)).allocate h
  · rw [allocate_objects object heq] at ho
    have hold := (allocate_reachable hrefs hreachable).resolve_left heq
    exact (houtlived o object' hold ho hpending d hd).allocate h

end Allocate

/-! ## An object that changes -/

section Set

variable {m : Memory} {o : ObjectId} {old object : Object}

theorem set_objects (object : Object) {t : ObjectId} (h : t ≠ o) :
    (m.set o object).objects t = m.objects t := Function.update_of_ne h _ _

theorem set_objects_self (m : Memory) (o : ObjectId) (object : Object) :
    (m.set o object).objects o = some object := Function.update_self ..

theorem set_reachable (hrefs : ∀ t ∈ object.references, m.Reachable t) {t : ObjectId}
    (ht : (m.set o object).Reachable t) : m.Reachable t := by
  refine ht.of_change (fun o' ho' => .root ho') fun o' a ho' ha t ht => ?_
  by_cases heq : o' = o
  · rw [heq, set_objects_self] at ha
    exact hrefs t (Option.some.inj ha ▸ ht)
  · rw [set_objects object heq] at ha
    exact .ref ho' ha ht

/-- What a change of an object leaves as it was. -/
structure Changes (m : Memory) (o : ObjectId) (old object : Object) : Prop where
  was : m.objects o = some old
  references : ∀ t ∈ object.references, m.Reachable t
  databases : object.kind.databases = old.kind.databases
  isDatabase : object.kind.isDatabase = old.kind.isDatabase
  pending : object.kind.isPending = true → old.kind.isPending = true

theorem Changes.kept (hchanges : Changes m o old object) {d : ObjectId} (h : m.Kept d) :
    (m.set o object).Kept d := by
  obtain ⟨⟨object', hobject', hkind⟩, hdeallocated⟩ := h
  refine ⟨?_, hdeallocated⟩
  by_cases heq : d = o
  · subst heq
    obtain rfl := Option.some.inj (hchanges.was.symm.trans hobject')
    exact ⟨object, set_objects_self m d object, hchanges.isDatabase.trans hkind⟩
  · exact ⟨object', (set_objects object heq).trans hobject', hkind⟩

theorem Changes.inv (hchanges : Changes m o old object) (h : Inv m) : Inv (m.set o object) where
  roots := h.roots
  objects t ht := by
    by_cases heq : t = o
    · exact h.objects t (heq ▸ by simp [hchanges.was])
    · rw [set_objects object heq] at ht
      exact h.objects t ht
  references t object' ht u hu := by
    by_cases heq : t = o
    · rw [heq, set_objects_self] at ht
      exact h.objects u (h.present u (hchanges.references u (Option.some.inj ht ▸ hu)))
    · rw [set_objects object heq] at ht
      exact h.references t object' ht u hu
  present t ht := by
    by_cases heq : t = o
    · rw [heq, set_objects_self]
      rfl
    · rw [set_objects object heq]
      exact h.present t (set_reachable hchanges.references ht)
  databases t object' ht d hd := by
    have hold : d < m.next ∧ ∀ object'', m.objects d = some object'' →
        object''.kind.isDatabase = true := by
      by_cases heq : t = o
      · rw [heq, set_objects_self] at ht
        obtain rfl := Option.some.inj ht
        exact h.databases o old hchanges.was d (hchanges.databases ▸ hd)
      · rw [set_objects object heq] at ht
        exact h.databases t object' ht d hd
    refine ⟨hold.1, fun object'' hobject'' => ?_⟩
    by_cases heq : d = o
    · rw [heq, set_objects_self] at hobject''
      obtain rfl := Option.some.inj hobject''
      exact hchanges.isDatabase.trans (hold.2 old (heq ▸ hchanges.was))
    · rw [set_objects object heq] at hobject''
      exact hold.2 object'' hobject''
  deallocated d hd := by
    obtain ⟨hlt, hnone⟩ := h.deallocated d hd
    have hne : d ≠ o := by
      rintro rfl
      cases hnone.symm.trans hchanges.was
    exact ⟨hlt, (set_objects object hne).trans hnone⟩

theorem Changes.outlived (hchanges : Changes m o old object) (houtlived : Outlived m) :
    Outlived (m.set o object) := by
  intro t object' hreachable ht hpending d hd
  have hold := set_reachable hchanges.references hreachable
  refine hchanges.kept ?_
  by_cases heq : t = o
  · rw [heq, set_objects_self] at ht
    obtain rfl := Option.some.inj ht
    exact houtlived t old hold (heq ▸ hchanges.was) (hchanges.pending hpending) d
      (hchanges.databases ▸ hd)
  · rw [set_objects object heq] at ht
    exact houtlived t object' hold ht hpending d hd

end Set

/-! ## Roots -/

section Roots

variable {m : Memory} {roots : List ObjectId}

theorem Inv.setRoots (h : Inv m) (hroots : ∀ o ∈ roots, m.Reachable o) :
    Inv { m with roots } where
  roots o ho := h.objects o (h.present o (hroots o ho))
  objects := h.objects
  references := h.references
  present o ho := h.present o (ho.of_change hroots fun _ _ ho ha _ ht => .ref ho ha ht)
  databases := h.databases
  deallocated := h.deallocated

theorem Outlived.setRoots (houtlived : Outlived m) (hroots : ∀ o ∈ roots, m.Reachable o) :
    Outlived { m with roots } := fun o object ho hobject hpending =>
  houtlived o object (ho.of_change hroots fun _ _ ho ha _ ht => .ref ho ha ht) hobject hpending

end Roots

/-! ## Collection -/

section Sweep

variable {m : Memory} {o : ObjectId} {object : Object}

theorem sweep_reachable_iff (ho : ¬ m.Reachable o) {t : ObjectId} :
    (m.sweep o object).Reachable t ↔ m.Reachable t := Heap.reachable_update_none_iff ho

theorem sweep_objects (object : Object) {t : ObjectId} (h : t ≠ o) :
    (m.sweep o object).objects t = m.objects t := Function.update_of_ne h _ _

theorem sweep_objects_self (m : Memory) (o : ObjectId) (object : Object) :
    (m.sweep o object).objects o = none := Function.update_self ..

theorem sweep_eq_some {t : ObjectId} {object' : Object}
    (h : (m.sweep o object).objects t = some object') : t ≠ o ∧ m.objects t = some object' := by
  have hne : t ≠ o := by
    rintro rfl
    cases (sweep_objects_self m t object).symm.trans h
  exact ⟨hne, (sweep_objects object hne).symm.trans h⟩

theorem mem_sweep_deallocated {d : ObjectId} (h : d ∈ (m.sweep o object).deallocated) :
    d = o ∨ d ∈ m.deallocated := by
  rw [Memory.sweep] at h
  dsimp only at h
  split at h
  · exact List.mem_cons.mp h
  · exact Or.inr h

theorem Inv.sweep (h : Inv m) (hobject : m.objects o = some object) (ho : ¬ m.Reachable o) :
    Inv (m.sweep o object) where
  roots := h.roots
  objects t ht := by
    obtain ⟨object', hobject'⟩ := Option.isSome_iff_exists.mp ht
    exact h.objects t (by simp [(sweep_eq_some hobject').2])
  references t object' ht := h.references t object' (sweep_eq_some ht).2
  present t ht := by
    have hold := (sweep_reachable_iff ho).mp ht
    have hne : t ≠ o := by
      rintro rfl
      exact ho hold
    rw [sweep_objects object hne]
    exact h.present t hold
  databases t object' ht d hd := by
    obtain ⟨hlt, hkind⟩ := h.databases t object' (sweep_eq_some ht).2 d hd
    exact ⟨hlt, fun object'' hobject'' => hkind object'' (sweep_eq_some hobject'').2⟩
  deallocated d hd := by
    by_cases heq : d = o
    · subst heq
      exact ⟨h.objects d (by simp [hobject]), sweep_objects_self m d object⟩
    · obtain ⟨hlt, hnone⟩ := h.deallocated d ((mem_sweep_deallocated hd).resolve_left heq)
      exact ⟨hlt, (sweep_objects object heq).trans hnone⟩

/-- What is collected is of use to nothing reachable exactly when no `Backup` uses it. -/
theorem sweep_outlived_iff (houtlived : Outlived m) (ho : ¬ m.Reachable o) :
    Outlived (m.sweep o object) ↔ Meets m (.collect o) := by
  constructor
  · intro hswept b backup hb hbackup _ hpending hd
    have hne : b ≠ o := by
      rintro rfl
      exact ho hb
    obtain ⟨⟨object', hobject', -⟩, -⟩ := hswept b backup ((sweep_reachable_iff ho).mpr hb)
      ((sweep_objects object hne).trans hbackup) hpending o hd
    exact absurd rfl (sweep_eq_some hobject').1
  · intro hmeets t object' hreachable ht hpending d hd
    have hold := (sweep_reachable_iff ho).mp hreachable
    have hobject' := (sweep_eq_some ht).2
    have hne : d ≠ o := by
      rintro rfl
      cases hbackup : object'.kind.isBackup with
      | true => exact ho (hmeets t object' hold hobject' hbackup hpending hd)
      | false => exact ho (Inv.reachable_of_statement hold hobject' hbackup hd)
    obtain ⟨⟨database, hdatabase, hkind⟩, hdeallocated⟩ :=
      houtlived t object' hold hobject' hpending d hd
    refine ⟨⟨database, (sweep_objects object hne).trans hdatabase, hkind⟩, fun hmem => ?_⟩
    exact hdeallocated ((mem_sweep_deallocated hmem).resolve_left hne)

end Sweep

/-! ## What the program holds -/

section Held

variable {m : Memory} {o d : ObjectId} {object : Object}

theorem held_eq_some (h : m.held o = some object) :
    m.Reachable o ∧ m.objects o = some object := by
  rw [Memory.held] at h
  split at h
  · exact ⟨.root ‹o ∈ m.roots›, h⟩
  · cases h

/-- A database is prepared on, copied from or copied to only while the program holds it. -/
theorem heldOpen_kept (hinv : Inv m) (h : m.heldOpen d = true) : m.Reachable d ∧ m.Kept d := by
  rw [Memory.heldOpen] at h
  cases hheld : m.held d with
  | none =>
      rw [hheld] at h
      cases h
  | some object =>
      obtain ⟨hreachable, hobject⟩ := held_eq_some hheld
      refine ⟨hreachable, hinv.kept hreachable fun object' hobject' => ?_⟩
      obtain rfl := Option.some.inj (hobject.symm.trans hobject')
      rw [hheld] at h
      obtain ⟨kind, others⟩ := object
      cases kind with
      | database isOpen => rfl
      | statement connection isOpen => cases h
      | backup dst src isOpen => cases h
      | other => cases h

theorem Kind.references_closed (kind : Kind) (others : List ObjectId) :
    Object.references ⟨kind.closed, others⟩ = Object.references ⟨kind, others⟩ := by
  cases kind <;> rfl

theorem changes_closed (ho : m.Reachable o) (hobject : m.objects o = some object) :
    Changes m o object { object with kind := object.kind.closed } where
  was := hobject
  references t ht := .ref ho hobject (Kind.references_closed object.kind object.others ▸ ht)
  databases := by cases object.kind <;> rfl
  isDatabase := by cases object.kind <;> rfl
  pending h := by cases hkind : object.kind <;> simp_all [Kind.closed, Kind.isPending]

/-- The references of an object with other references of its own. -/
theorem mem_references_others {others : List ObjectId} {t : ObjectId}
    (ht : t ∈ Object.references { object with others }) : t ∈ object.references ∨ t ∈ others := by
  obtain ⟨kind, others'⟩ := object
  cases kind with
  | statement connection isOpen =>
      rcases List.mem_cons.mp ht with rfl | ht
      · exact Or.inl List.mem_cons_self
      · exact Or.inr ht
  | database isOpen => exact Or.inr ht
  | backup dst src isOpen => exact Or.inr ht
  | other => exact Or.inr ht

theorem mem_references_of_others {t : ObjectId} (ht : t ∈ object.others) :
    t ∈ object.references := by
  obtain ⟨kind, others⟩ := object
  cases kind with
  | statement connection isOpen => exact List.mem_cons_of_mem connection ht
  | database isOpen => exact ht
  | backup dst src isOpen => exact ht
  | other => exact ht

theorem changes_others {others : List ObjectId} (ho : m.Reachable o)
    (hobject : m.objects o = some object) (hothers : ∀ t ∈ others, m.Reachable t) :
    Changes m o object { object with others } where
  was := hobject
  references t ht := by
    rcases mem_references_others ht with ht | ht
    · exact .ref ho hobject ht
    · exact hothers t ht
  databases := rfl
  isDatabase := rfl
  pending := id

end Held

/-! ## Every run -/

/-- What a step other than a collection does. -/
inductive Effect (m : Memory) : Memory → Prop
  | allocate (object : Object) (hrefs : ∀ t ∈ object.references, m.Reachable t)
      (hdatabases : ∀ d ∈ object.kind.databases, m.Kept d) : Effect m (m.allocate object)
  | change (o : ObjectId) (old object : Object) (h : Changes m o old object) :
      Effect m (m.set o object)
  | setRoots (roots : List ObjectId) (hroots : ∀ o ∈ roots, m.Reachable o) :
      Effect m { m with roots }

section Run

variable {m m' : Memory} {event : Event}

theorem Effect.inv (heffect : Effect m m') (h : Inv m) : Inv m' := by
  cases heffect with
  | allocate object hrefs hdatabases => exact h.allocate hrefs hdatabases
  | change o old object hchanges => exact hchanges.inv h
  | setRoots roots hroots => exact h.setRoots hroots

theorem Effect.outlived (heffect : Effect m m') (h : Inv m) (houtlived : Outlived m) :
    Outlived m' := by
  cases heffect with
  | allocate object hrefs hdatabases => exact houtlived.allocate h hrefs hdatabases
  | change o old object hchanges => exact hchanges.outlived houtlived
  | setRoots roots hroots => exact houtlived.setRoots hroots

theorem step_collect (h : Inv m) {o : ObjectId} (hstep : step m (.collect o) = some m') :
    ∃ object, ¬ m.Reachable o ∧ m.objects o = some object ∧ m' = m.sweep o object := by
  rw [step] at hstep
  split at hstep
  · cases hstep
  · rename_i hmarked
    obtain ⟨object, hobject, rfl⟩ := Option.map_eq_some_iff.mp hstep
    exact ⟨object, fun ho => hmarked (h.mem_marked_iff.mpr ho), hobject, rfl⟩

theorem effect_of_step (h : Inv m) (hstep : step m event = some m')
    (hevent : ∀ o, event ≠ .collect o) : Effect m m' := by
  cases event with
  | newDatabase =>
      obtain rfl := Option.some.inj hstep
      exact .allocate _ (fun _ ht => absurd ht List.not_mem_nil)
        fun _ hd => absurd hd List.not_mem_nil
  | prepare db compiles =>
      obtain ⟨hopen, hstep⟩ := Option.ite_none_right_eq_some.mp hstep
      obtain rfl := Option.some.inj hstep
      obtain ⟨hreachable, hkept⟩ := heldOpen_kept h hopen
      refine .allocate _ (fun t ht => ?_) fun d hd => ?_
      · exact List.mem_singleton.mp ht ▸ hreachable
      · exact List.mem_singleton.mp hd ▸ hkept
  | newBackup dst src starts =>
      obtain ⟨hopen, hstep⟩ := Option.ite_none_right_eq_some.mp hstep
      obtain rfl := Option.some.inj hstep
      obtain ⟨hsrc, hdst⟩ := Bool.and_eq_true_iff.mp hopen
      refine .allocate _ (fun _ ht => absurd ht List.not_mem_nil) fun d hd => ?_
      rcases List.mem_pair.mp hd with rfl | rfl
      · exact (heldOpen_kept h hdst).2
      · exact (heldOpen_kept h hsrc).2
  | newOther references =>
      obtain ⟨hroots, hstep⟩ := Option.ite_none_right_eq_some.mp hstep
      obtain rfl := Option.some.inj hstep
      exact .allocate _ (fun t ht => .root (hroots t ht)) fun _ hd => absurd hd List.not_mem_nil
  | close o =>
      obtain ⟨object, hheld, rfl⟩ := Option.map_eq_some_iff.mp hstep
      obtain ⟨hreachable, hobject⟩ := held_eq_some hheld
      exact .change o object _ (changes_closed hreachable hobject)
  | step o =>
      obtain ⟨object, -, rfl⟩ := Option.map_eq_some_iff.mp hstep
      exact .setRoots m.roots fun _ ho => .root ho
  | refer o target =>
      obtain ⟨htarget, hstep⟩ := Option.ite_none_right_eq_some.mp hstep
      obtain ⟨object, hheld, rfl⟩ := Option.map_eq_some_iff.mp hstep
      obtain ⟨hreachable, hobject⟩ := held_eq_some hheld
      refine .change o object _ (changes_others hreachable hobject fun t ht => ?_)
      rcases List.mem_cons.mp ht with rfl | ht
      · exact .root htarget
      · exact .ref hreachable hobject (mem_references_of_others ht)
  | unrefer o target =>
      obtain ⟨object, hheld, rfl⟩ := Option.map_eq_some_iff.mp hstep
      obtain ⟨hreachable, hobject⟩ := held_eq_some hheld
      refine .change o object _ (changes_others hreachable hobject fun t ht => ?_)
      exact .ref hreachable hobject (mem_references_of_others (List.mem_of_mem_filter ht))
  | read o target =>
      obtain ⟨object, hheld, hstep⟩ := Option.bind_eq_some_iff.mp hstep
      obtain ⟨htarget, hstep⟩ := Option.ite_none_right_eq_some.mp hstep
      obtain rfl := Option.some.inj hstep
      obtain ⟨hreachable, hobject⟩ := held_eq_some hheld
      refine .setRoots _ fun t ht => ?_
      rcases List.mem_cons.mp ht with rfl | ht
      · exact .ref hreachable hobject htarget
      · exact .root ht
  | drop o =>
      obtain rfl := Option.some.inj hstep
      exact .setRoots _ fun t ht => .root (List.mem_of_mem_filter ht)
  | collect o => exact absurd rfl (hevent o)

theorem step_inv (h : Inv m) (hstep : step m event = some m') : Inv m' := by
  by_cases hcollect : ∃ o, event = .collect o
  · obtain ⟨o, rfl⟩ := hcollect
    obtain ⟨object, ho, hobject, rfl⟩ := step_collect h hstep
    exact h.sweep hobject ho
  · exact (effect_of_step h hstep (not_exists.mp hcollect)).inv h

theorem step_outlived_iff (h : Inv m) (houtlived : Outlived m) (hstep : step m event = some m') :
    Outlived m' ↔ Meets m event := by
  by_cases hcollect : ∃ o, event = .collect o
  · obtain ⟨o, rfl⟩ := hcollect
    obtain ⟨object, ho, -, rfl⟩ := step_collect h hstep
    exact sweep_outlived_iff houtlived ho
  · have hevent := not_exists.mp hcollect
    refine iff_of_true ((effect_of_step h hstep hevent).outlived h houtlived) ?_
    cases event with
    | collect o => exact absurd rfl (hevent o)
    | _ => trivial

end Run

theorem not_reachable_start (o : ObjectId) : ¬ start.Reachable o := by
  intro h
  exact h.closed (p := fun _ => False) (fun _ ho => absurd ho List.not_mem_nil)
    fun _ _ ho _ _ _ => ho

theorem inv_start : Inv start where
  roots _ ho := absurd ho List.not_mem_nil
  objects _ ho := absurd ho Bool.false_ne_true
  references _ _ ho := nomatch ho
  present o ho := absurd ho (not_reachable_start o)
  databases _ _ ho := nomatch ho
  deallocated _ hd := absurd hd List.not_mem_nil

theorem outlived_start : Outlived start := fun o _ ho => absurd ho (not_reachable_start o)

/-- In every run, what is reachable and in use outlives none of its databases exactly when
the program can reach each database of a reachable unfinished `Backup` when the collector
comes to it. -/
theorem wrappers_outlived_iff (events : List Event) :
    StepSystem.AlwaysState step Outlived start events ↔
      StepSystem.AlwaysStep step Meets start events :=
  StepSystem.alwaysState_iff_alwaysStep (fun _ _ _ h hstep => step_inv h hstep)
    (fun _ _ _ h houtlived hstep => step_outlived_iff h houtlived hstep) inv_start outlived_start

/-- The source of a `Backup` is collected when the program drops it. -/
theorem source_collected : ¬ ∀ events, StepSystem.AlwaysState step Outlived start events := by
  intro h
  have hlast := (h [.newDatabase, .newDatabase, .newBackup 1 0 true, .drop 0, .collect 0]).last rfl
  have hkept := hlast 2 ⟨.backup 1 0 true, []⟩ (.root (by decide)) rfl rfl 0 (by decide)
  obtain ⟨⟨object, hobject, -⟩, -⟩ := hkept
  cases hobject

end Sqlite3Ruby.Collection
