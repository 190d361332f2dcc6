import Mathlib.Tactic.Common

/-!
# Ruby exceptions and the ways a call can end

A call into Ruby returns, raises, or leaves by another non-local jump
(`throw`, or a `return` or `break` out of a block). `rb_protect` turns each of
the last two into a status; a bare `rescue` sees only the exceptions below
`StandardError`. `status2klass` is the table of `exception.c`.
-/

namespace Sqlite3Ruby

/-- A Ruby exception class, as the path of its superclasses below `Exception`. -/
inductive ExceptionClass
  | Exception
  | subclass (name : String) (superclass : ExceptionClass)
  deriving DecidableEq, Repr

namespace ExceptionClass

/-- `c <= d`: `d` is `c` or one of its superclasses. -/
def isA (c d : ExceptionClass) : Bool :=
  match c with
  | Exception => decide (d = Exception)
  | subclass name superclass =>
      decide (d = subclass name superclass) || isA superclass d

def StandardError : ExceptionClass := .subclass "StandardError" .Exception
def RuntimeError : ExceptionClass := .subclass "RuntimeError" StandardError
def ArgumentError : ExceptionClass := .subclass "ArgumentError" StandardError
def TypeError : ExceptionClass := .subclass "TypeError" StandardError
def RangeError : ExceptionClass := .subclass "RangeError" StandardError
def EncodingError : ExceptionClass := .subclass "EncodingError" StandardError
def UndefinedConversionError : ExceptionClass :=
  .subclass "Encoding::UndefinedConversionError" EncodingError
def InvalidByteSequenceError : ExceptionClass :=
  .subclass "Encoding::InvalidByteSequenceError" EncodingError
def ConverterNotFoundError : ExceptionClass :=
  .subclass "Encoding::ConverterNotFoundError" EncodingError
def CompatibilityError : ExceptionClass := .subclass "Encoding::CompatibilityError" EncodingError
def SignalException : ExceptionClass := .subclass "SignalException" .Exception
def Interrupt : ExceptionClass := .subclass "Interrupt" SignalException
def fatal : ExceptionClass := .subclass "fatal" .Exception

/-- `SQLite3::Exception`, the root of the classes declared in `errors.rb`. -/
def SQLite3Exception : ExceptionClass := .subclass "SQLite3::Exception" StandardError

end ExceptionClass

/-- An exception object. -/
structure RubyException where
  klass : ExceptionClass
  message : String := ""
  deriving DecidableEq, Repr

/-- A `rescue` clause without a class list takes exactly the `StandardError`s. -/
def RubyException.isStandardError (e : RubyException) : Bool :=
  e.klass.isA .StandardError

/-- How a call into Ruby ends. -/
inductive Outcome (α : Type)
  | ok (a : α)
  | raise (e : RubyException)
  | jump (tag : String)
  deriving DecidableEq, Repr

namespace Outcome

variable {α β : Type}

/-- Sequencing: a raise or a jump skips what follows. -/
protected def bind (o : Outcome α) (f : α → Outcome β) : Outcome β :=
  match o with
  | ok a => f a
  | raise e => raise e
  | jump tag => jump tag

instance : Monad Outcome where
  pure := ok
  bind := Outcome.bind

@[simp] theorem pure_eq (a : α) : (pure a : Outcome α) = ok a := rfl
@[simp] theorem ok_bind (a : α) (f : α → Outcome β) : (ok a >>= f) = f a := rfl
@[simp] theorem raise_bind (e : RubyException) (f : α → Outcome β) :
    ((raise e : Outcome α) >>= f) = raise e := rfl
@[simp] theorem jump_bind (tag : String) (f : α → Outcome β) :
    ((jump tag : Outcome α) >>= f) = jump tag := rfl

@[simp] theorem map_ok (f : α → β) (a : α) : f <$> ok a = ok (f a) := rfl
@[simp] theorem map_raise (f : α → β) (e : RubyException) :
    f <$> (raise e : Outcome α) = raise e := rfl
@[simp] theorem map_jump (f : α → β) (tag : String) :
    f <$> (jump tag : Outcome α) = jump tag := rfl

/-- The call comes back to its caller with a value. -/
def Returns (o : Outcome α) : Prop := ∃ a, o = ok a

@[simp] theorem returns_ok (a : α) : Returns (ok a) := ⟨a, rfl⟩
@[simp] theorem not_returns_raise (e : RubyException) : ¬ Returns (raise e : Outcome α) := by
  simp [Returns]
@[simp] theorem not_returns_jump (tag : String) : ¬ Returns (jump tag : Outcome α) := by
  simp [Returns]

instance (o : Outcome α) : Decidable o.Returns :=
  match o with
  | ok a => .isTrue (returns_ok a)
  | raise e => .isFalse (not_returns_raise e)
  | jump tag => .isFalse (not_returns_jump tag)

/-- A sequence returns when its first part does, with a value on which the rest returns. -/
theorem returns_bind_iff (o : Outcome α) (f : α → Outcome β) :
    (o >>= f).Returns ↔ ∃ a, o = ok a ∧ (f a).Returns := by
  cases o with
  | ok a => simp
  | raise e => simp
  | jump tag => simp

theorem bind_eq_ok_iff {o : Outcome α} {f : α → Outcome β} {b : β} :
    (o >>= f) = ok b ↔ ∃ a, o = ok a ∧ f a = ok b := by
  cases o with
  | ok a => simp
  | raise e => simp
  | jump tag => simp

/-- `rb_protect`: the value, or `Qnil` (here `none`) with a status other than zero. -/
def rbProtect (o : Outcome α) : Option α × Nat :=
  match o with
  | ok a => (some a, 0)
  | raise _ => (none, 6)
  | jump _ => (none, 7)

@[simp] theorem rbProtect_ok (a : α) : rbProtect (ok a) = (some a, 0) := rfl

end Outcome

/-- Code that works on a state of type `σ` and ends as a call into Ruby does. What
it did to the state stays when it raises. -/
def RubyM (σ α : Type) := σ → Outcome α × σ

namespace RubyM

variable {σ α β : Type}

protected def bind (m : RubyM σ α) (f : α → RubyM σ β) : RubyM σ β := fun s =>
  match m s with
  | (.ok a, s) => f a s
  | (.raise e, s) => (.raise e, s)
  | (.jump tag, s) => (.jump tag, s)

instance : Monad (RubyM σ) where
  pure a := fun s => (.ok a, s)
  bind := RubyM.bind

def get : RubyM σ σ := fun s => (.ok s, s)

def modify (f : σ → σ) : RubyM σ Unit := fun s => (.ok (), f s)

/-- Code that does not touch the state. -/
def lift (o : Outcome α) : RubyM σ α := fun s => (o, s)

/-- `begin m ensure clause end`: the clause runs on every exit, and a raise in it
replaces that exit. -/
def ensure (m : RubyM σ α) (clause : RubyM σ Unit) : RubyM σ α := fun s =>
  let (o, t) := m s
  (clause >>= fun _ => lift o) t

@[simp] theorem pure_run (a : α) (s : σ) : (pure a : RubyM σ α) s = (.ok a, s) := rfl
@[simp] theorem modify_run (f : σ → σ) (s : σ) : modify f s = (.ok (), f s) := rfl
@[simp] theorem lift_run (o : Outcome α) (s : σ) : lift o s = (o, s) := rfl

theorem bind_run_ok {m : RubyM σ α} {s t : σ} (a : α) (f : α → RubyM σ β)
    (h : m s = (.ok a, t)) : (m >>= f) s = f a t := by
  change RubyM.bind m f s = _
  simp [RubyM.bind, h]

theorem bind_run_raise {m : RubyM σ α} {s t : σ} {e : RubyException} (f : α → RubyM σ β)
    (h : m s = (.raise e, t)) : (m >>= f) s = (.raise e, t) := by
  change RubyM.bind m f s = _
  simp [RubyM.bind, h]

theorem bind_run_jump {m : RubyM σ α} {s t : σ} {tag : String} (f : α → RubyM σ β)
    (h : m s = (.jump tag, t)) : (m >>= f) s = (.jump tag, t) := by
  change RubyM.bind m f s = _
  simp [RubyM.bind, h]

/-- A sequence returns when its first part does and the rest does on its value. -/
theorem bind_eq_ok_iff {m : RubyM σ α} {f : α → RubyM σ β} {s u : σ} {b : β} :
    (m >>= f) s = (.ok b, u) ↔ ∃ a t, m s = (.ok a, t) ∧ f a t = (.ok b, u) := by
  rcases hrun : m s with ⟨o, t⟩
  cases o with
  | ok a =>
      rw [bind_run_ok a f hrun]
      constructor
      · exact fun h => ⟨a, t, rfl, h⟩
      · rintro ⟨a', t', h, hrest⟩
        obtain ⟨ha, rfl⟩ := Prod.mk.inj h
        rw [Outcome.ok.inj ha]
        exact hrest
  | raise e =>
      rw [bind_run_raise f hrun]
      simp
  | jump tag =>
      rw [bind_run_jump f hrun]
      simp

/-- A sequence returns when its first part does and then the rest. -/
theorem bind_returns_iff (m : RubyM σ α) (f : α → RubyM σ β) (s : σ) :
    ((m >>= f) s).1.Returns ↔ ∃ a, (m s).1 = .ok a ∧ (f a (m s).2).1.Returns := by
  rcases hrun : m s with ⟨o, t⟩
  cases o with
  | ok a =>
      rw [bind_run_ok a f hrun]
      simp
  | raise e =>
      rw [bind_run_raise f hrun]
      simp
  | jump tag =>
      rw [bind_run_jump f hrun]
      simp

/-- What follows code that does not return is not run. -/
theorem bind_snd_of_not_returns {m : RubyM σ α} (f : α → RubyM σ β) {s : σ}
    (h : ¬ (m s).1.Returns) : ((m >>= f) s).2 = (m s).2 := by
  rcases hrun : m s with ⟨o, t⟩
  rw [hrun] at h
  cases o with
  | ok a => exact absurd (Outcome.returns_ok a) h
  | raise e => rw [bind_run_raise f hrun]
  | jump tag => rw [bind_run_jump f hrun]

/-- Two runs of a sequence end the same way when their first parts do and the rests do. -/
theorem bind_fst_congr {m : RubyM σ α} {f : α → RubyM σ β} {s t : σ} (h : (m s).1 = (m t).1)
    (hrest : ∀ a, (m s).1 = .ok a → (f a (m s).2).1 = (f a (m t).2).1) :
    ((m >>= f) s).1 = ((m >>= f) t).1 := by
  rcases hs : m s with ⟨o, s'⟩
  rcases ht : m t with ⟨o', t'⟩
  rw [hs, ht] at h hrest
  obtain rfl : o = o' := h
  cases o with
  | ok a =>
      rw [bind_run_ok a f hs, bind_run_ok a f ht]
      exact hrest a rfl
  | raise e => rw [bind_run_raise f hs, bind_run_raise f ht]
  | jump tag => rw [bind_run_jump f hs, bind_run_jump f ht]

theorem bind_assoc {γ : Type} (m : RubyM σ α) (f : α → RubyM σ β) (g : β → RubyM σ γ) :
    ((m >>= f) >>= g) = (m >>= fun a => f a >>= g) := by
  funext s
  rcases hrun : m s with ⟨o, t⟩
  cases o with
  | ok a =>
      rw [bind_run_ok a _ hrun]
      change RubyM.bind (RubyM.bind m f) g s = RubyM.bind (f a) g t
      rw [RubyM.bind, RubyM.bind, hrun]
      rfl
  | raise e => rw [bind_run_raise _ (bind_run_raise f hrun), bind_run_raise _ hrun]
  | jump tag => rw [bind_run_jump _ (bind_run_jump f hrun), bind_run_jump _ hrun]

/-- Handing on another value changes nothing. -/
theorem bind_pure_snd (m : RubyM σ α) (f : α → β) (s : σ) :
    ((m >>= fun a => pure (f a)) s).2 = (m s).2 := by
  rcases hrun : m s with ⟨o, t⟩
  cases o with
  | ok a => rw [bind_run_ok a _ hrun, pure_run]
  | raise e => rw [bind_run_raise _ hrun]
  | jump tag => rw [bind_run_jump _ hrun]

@[simp] theorem lift_ok_bind (a : α) (f : α → RubyM σ β) (s : σ) :
    (lift (.ok a) >>= f) s = f a s :=
  bind_run_ok a f rfl

@[simp] theorem lift_raise_bind (e : RubyException) (f : α → RubyM σ β) (s : σ) :
    (lift (.raise e) >>= f) s = (.raise e, s) :=
  bind_run_raise f rfl

@[simp] theorem lift_jump_bind (tag : String) (f : α → RubyM σ β) (s : σ) :
    (lift (.jump tag) >>= f) s = (.jump tag, s) := rfl

theorem lift_bind {γ : Type} (o : Outcome α) (f : α → Outcome γ) :
    (lift (o >>= f) : RubyM σ γ) = lift o >>= fun a => lift (f a) := by
  cases o <;> rfl

theorem lift_bind_congr {o : Outcome α} {f g : α → RubyM σ β} {s : σ}
    (h : ∀ a, f a s = g a s) : (lift o >>= f) s = (lift o >>= g) s := by
  cases o with
  | ok a => exact h a
  | raise e => rfl
  | jump tag => rfl

@[simp] theorem get_bind (f : σ → RubyM σ β) (s : σ) : (get >>= f) s = f s s :=
  bind_run_ok s f rfl

@[simp] theorem modify_bind (g : σ → σ) (f : Unit → RubyM σ β) (s : σ) :
    (modify g >>= f) s = f () (g s) :=
  bind_run_ok () f rfl

/-- A relation between states that both parts of a sequence respect. -/
theorem bind_respects (R : σ → σ → Prop) (htrans : ∀ {s t u}, R s t → R t u → R s u)
    {m : RubyM σ α} {f : α → RubyM σ β} (hm : ∀ s, R s (m s).2) (hf : ∀ a s, R s (f a s).2)
    (s : σ) : R s ((m >>= f) s).2 := by
  have hfirst := hm s
  rcases hrun : m s with ⟨o, t⟩
  rw [hrun] at hfirst
  cases o with
  | ok a =>
      rw [bind_run_ok a f hrun]
      exact htrans hfirst (hf a t)
  | raise e =>
      rw [bind_run_raise f hrun]
      exact hfirst
  | jump tag =>
      rw [bind_run_jump f hrun]
      exact hfirst

/-- Where the states are related, the codes come to the same and to related states. -/
def Relates {τ : Type} (R : σ → τ → Prop) (m : RubyM σ α) (f : RubyM τ α) : Prop :=
  ∀ s t, R s t → (m s).1 = (f t).1 ∧ R (m s).2 (f t).2

theorem Relates.bind {τ : Type} {R : σ → τ → Prop} {m : RubyM σ α} {f : RubyM τ α}
    {k : α → RubyM σ β} {l : α → RubyM τ β} (h : Relates R m f)
    (hk : ∀ a, Relates R (k a) (l a)) : Relates R (m >>= k) (f >>= l) := by
  intro s t hst
  obtain ⟨hsame, hrelated⟩ := h s t hst
  rcases hm : m s with ⟨o, s'⟩
  rcases hf : f t with ⟨o', t'⟩
  rw [hm, hf] at hsame hrelated
  obtain rfl : o = o' := hsame
  cases o with
  | ok a =>
      rw [bind_run_ok a k hm, bind_run_ok a l hf]
      exact hk a s' t' hrelated
  | raise e =>
      rw [bind_run_raise k hm, bind_run_raise l hf]
      exact ⟨rfl, hrelated⟩
  | jump tag =>
      rw [bind_run_jump k hm, bind_run_jump l hf]
      exact ⟨rfl, hrelated⟩

theorem relates_pure {τ : Type} (R : σ → τ → Prop) (a : α) :
    Relates R (pure a : RubyM σ α) (pure a : RubyM τ α) := fun _ _ h => ⟨rfl, h⟩

theorem relates_lift {τ : Type} (R : σ → τ → Prop) (o : Outcome α) :
    Relates R (lift o : RubyM σ α) (lift o : RubyM τ α) := fun _ _ h => ⟨rfl, h⟩

/-- The code neither reads nor writes what `φ` changes of the state. -/
def Commutes (φ : σ → σ) (m : RubyM σ α) : Prop := ∀ s, m (φ s) = ((m s).1, φ (m s).2)

theorem Commutes.bind {φ : σ → σ} {m : RubyM σ α} {f : α → RubyM σ β} (hm : Commutes φ m)
    (hf : ∀ a, Commutes φ (f a)) : Commutes φ (m >>= f) := by
  intro s
  have hfirst := hm s
  rcases hrun : m s with ⟨o, t⟩
  rw [hrun] at hfirst
  cases o with
  | ok a => rw [bind_run_ok a f hrun, bind_run_ok a f hfirst, hf a t]
  | raise e => rw [bind_run_raise f hrun, bind_run_raise f hfirst]
  | jump tag => rw [bind_run_jump f hrun, bind_run_jump f hfirst]

theorem commutes_pure (φ : σ → σ) (a : α) : Commutes φ (pure a : RubyM σ α) := fun _ => rfl

theorem commutes_lift (φ : σ → σ) (o : Outcome α) : Commutes φ (lift o : RubyM σ α) := fun _ => rfl

/-- What is left behind when the rest of the code runs only if a call returns. -/
theorem final_lift {P : σ → Prop} {o : Outcome α} {f : α → RubyM σ β} {s : σ} (hs : P s)
    (hf : ∀ a, P (f a s).2) : P ((lift o >>= f) s).2 := by
  cases o with
  | ok a => exact hf a
  | raise e => exact hs
  | jump tag => exact hs

/-- What the first part of a sequence leaves behind and the rest keeps. -/
theorem final_bind {P : σ → Prop} {m : RubyM σ α} {f : α → RubyM σ β} {s : σ} (hm : P (m s).2)
    (hf : ∀ a t, P t → P (f a t).2) : P ((m >>= f) s).2 := by
  rcases hrun : m s with ⟨o, t⟩
  rw [hrun] at hm
  cases o with
  | ok a =>
      rw [bind_run_ok a f hrun]
      exact hf a t hm
  | raise e =>
      rw [bind_run_raise f hrun]
      exact hm
  | jump tag =>
      rw [bind_run_jump f hrun]
      exact hm

end RubyM

open ExceptionClass in
/-- `status2klass` of `exception.c`: only the lower 8 bits of the status count;
`none` is the `Qnil` of `SQLITE_OK`. -/
def status2klass (status : Nat) : Option ExceptionClass :=
  let below (name : String) := some (subclass name SQLite3Exception)
  match status % 256 with
  | 0 => none
  | 1 => below "SQLite3::SQLException"
  | 2 => below "SQLite3::InternalException"
  | 3 => below "SQLite3::PermissionException"
  | 4 => below "SQLite3::AbortException"
  | 5 => below "SQLite3::BusyException"
  | 6 => below "SQLite3::LockedException"
  | 7 => below "SQLite3::MemoryException"
  | 8 => below "SQLite3::ReadOnlyException"
  | 9 => below "SQLite3::InterruptException"
  | 10 => below "SQLite3::IOException"
  | 11 => below "SQLite3::CorruptException"
  | 12 => below "SQLite3::NotFoundException"
  | 13 => below "SQLite3::FullException"
  | 14 => below "SQLite3::CantOpenException"
  | 15 => below "SQLite3::ProtocolException"
  | 16 => below "SQLite3::EmptyException"
  | 17 => below "SQLite3::SchemaChangedException"
  | 18 => below "SQLite3::TooBigException"
  | 19 => below "SQLite3::ConstraintException"
  | 20 => below "SQLite3::MismatchException"
  | 21 => below "SQLite3::MisuseException"
  | 22 => below "SQLite3::UnsupportedException"
  | 23 => below "SQLite3::AuthorizationException"
  | 24 => below "SQLite3::FormatException"
  | 25 => below "SQLite3::RangeException"
  | 26 => below "SQLite3::NotADatabaseException"
  | _ => some SQLite3Exception

/-- Every status that raises at all raises a `StandardError`. -/
theorem status2klass_isStandardError {status : Nat} {klass : ExceptionClass}
    (h : status2klass status = some klass) :
    klass.isA .StandardError = true := by
  simp only [status2klass] at h
  split at h <;> cases h <;> rfl

/-- `status2klass` is `Qnil` exactly for the statuses whose primary code is `SQLITE_OK`. -/
theorem status2klass_eq_none_iff (status : Nat) :
    status2klass status = none ↔ status % 256 = 0 := by
  simp only [status2klass]
  split <;> simp_all

/-- A status that `CHECK` turns into an exception. -/
abbrev ErrorStatus := {status : Nat // status % 256 ≠ 0}

/-- `CHECK(db, status)`: `rb_sqlite3_raise` with SQLite's current error message. -/
def check (status : Nat) (errmsg : String) : Outcome Unit :=
  match status2klass status with
  | none => .ok ()
  | some klass => .raise ⟨klass, errmsg⟩

theorem check_eq_ok_iff (status : Nat) (errmsg : String) :
    check status errmsg = .ok () ↔ status % 256 = 0 := by
  rw [← status2klass_eq_none_iff, check]
  cases status2klass status <;> simp

/-- What `CHECK` raises is a `StandardError` with the message SQLite gives. -/
theorem check_raise {status : Nat} {errmsg : String} {e : RubyException}
    (h : check status errmsg = .raise e) : e.isStandardError = true ∧ e.message = errmsg := by
  rw [check] at h
  cases hk : status2klass status with
  | none => simp [hk] at h
  | some klass =>
      simp only [hk, Outcome.raise.injEq] at h
      subst h
      exact ⟨status2klass_isStandardError hk, rfl⟩

/-- `CHECK` raises on every error status. -/
theorem check_errorStatus (status : ErrorStatus) (errmsg : String) :
    ∃ e, check status.1 errmsg = .raise e ∧ e.isStandardError = true := by
  cases h : check status.1 errmsg with
  | ok u => exact absurd ((check_eq_ok_iff _ _).mp h) status.2
  | raise e => exact ⟨e, rfl, (check_raise h).1⟩
  | jump tag =>
      rw [check] at h
      cases hk : status2klass status.1 <;> simp [hk] at h

end Sqlite3Ruby
