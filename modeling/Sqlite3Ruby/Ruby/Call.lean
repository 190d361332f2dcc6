import Sqlite3Ruby.Ruby.Exception

/-!
# Calls with loops

A `while` or a `loop` need not end. A call is given a number of rounds, and has
no result when one of its loops goes on for more.

## Implementation notes

What a block keeps in the variables of its caller is handed from round to round.
-/

namespace Sqlite3Ruby

/-- `StopIteration`, which ends a `loop`. -/
def ExceptionClass.StopIteration : ExceptionClass :=
  .subclass "StopIteration" (.subclass "IndexError" .StandardError)

/-- The exception is one that `loop` rescues. -/
def RubyException.isStopIteration (e : RubyException) : Bool := e.klass.isA .StopIteration

/-- Code with loops. -/
def CallM (σ α : Type) := Nat → σ → Option (Outcome α × σ)

namespace CallM

variable {σ α β : Type}

protected def bind (m : CallM σ α) (f : α → CallM σ β) : CallM σ β := fun rounds s =>
  match m rounds s with
  | some (.ok a, s) => f a rounds s
  | some (.raise e, s) => some (.raise e, s)
  | some (.jump tag, s) => some (.jump tag, s)
  | none => none

instance : Monad (CallM σ) where
  pure a := fun _ s => some (.ok a, s)
  bind := CallM.bind

/-- Code without loops. -/
def ofRuby (m : RubyM σ α) : CallM σ α := fun _ s => some (m s)

def get : CallM σ σ := ofRuby RubyM.get

def modify (f : σ → σ) : CallM σ Unit := ofRuby (RubyM.modify f)

def lift (o : Outcome α) : CallM σ α := ofRuby (RubyM.lift o)

/-- A loop that has had all its rounds. -/
def diverge : CallM σ α := fun _ _ => none

/-- `begin m ensure clause end`: the clause runs on every exit, and a raise in it
replaces that exit. -/
def ensure (m : CallM σ α) (clause : CallM σ Unit) : CallM σ α := fun rounds s =>
  match m rounds s with
  | some (o, s) => (clause >>= fun _ => lift o) rounds s
  | none => none

/-- The rest of the code, or `a` instead of it when `m` raises a `StopIteration`. -/
def unlessStop (m : CallM σ α) (b : β) (f : α → CallM σ β) : CallM σ β := fun rounds s =>
  match m rounds s with
  | some (.raise e, s) => if e.isStopIteration then some (.ok b, s) else some (.raise e, s)
  | some (.ok a, s) => f a rounds s
  | some (.jump tag, s) => some (.jump tag, s)
  | none => none

def whileRounds (next : CallM σ (Option α)) (body : β → α → CallM σ β) : Nat → β → CallM σ β
  | 0, b => do
      match ← next with
      | none => pure b
      | some _ => diverge
  | rounds + 1, b => do
      match ← next with
      | none => pure b
      | some a => do
          let b ← body b a
          whileRounds next body rounds b

/-- `while (a = next)`. -/
def whileSome (next : CallM σ (Option α)) (body : β → α → CallM σ β) (b : β) : CallM σ β :=
  fun rounds => whileRounds next body rounds b rounds

def loopRounds (next : CallM σ (Option α)) (body : β → α → CallM σ β) : Nat → β → CallM σ β
  | 0, b => next.unlessStop b fun
      | none => pure b
      | some _ => diverge
  | rounds + 1, b => next.unlessStop b fun
      | none => pure b
      | some a => (body b a).unlessStop b (loopRounds next body rounds)

/-- `loop`, which `next` leaves by returning nothing. -/
def loopSome (next : CallM σ (Option α)) (body : β → α → CallM σ β) (b : β) : CallM σ β :=
  fun rounds => loopRounds next body rounds b rounds

def untilRounds (finished : β → Bool) (body : β → CallM σ β) : Nat → β → CallM σ β
  | 0, b => if finished b then pure b else diverge
  | rounds + 1, b =>
      if finished b then pure b
      else do
        let b ← body b
        untilRounds finished body rounds b

/-- `until finished`, with a body that hands the variables of the loop on. -/
def loopUntil (finished : β → Bool) (body : β → CallM σ β) (b : β) : CallM σ β :=
  fun rounds => untilRounds finished body rounds b rounds

/-- The loop up to this round. -/
def firstRounds (finished : β → Bool) (body : β → CallM σ β) : Nat → β → CallM σ β
  | 0, b => pure b
  | limit + 1, b =>
      if finished b then pure b
      else do
        let b ← body b
        firstRounds finished body limit b

@[simp] theorem pure_run (a : α) (rounds : Nat) (s : σ) :
    (pure a : CallM σ α) rounds s = some (.ok a, s) := rfl

@[simp] theorem ofRuby_run (m : RubyM σ α) (rounds : Nat) (s : σ) :
    ofRuby m rounds s = some (m s) := rfl

@[simp] theorem lift_run (o : Outcome α) (rounds : Nat) (s : σ) :
    lift o rounds s = some (o, s) := rfl

@[simp] theorem diverge_run (rounds : Nat) (s : σ) :
    (diverge : CallM σ α) rounds s = none := rfl

theorem bind_run (m : CallM σ α) (f : α → CallM σ β) (rounds : Nat) (s : σ) :
    (m >>= f) rounds s =
      match m rounds s with
      | some (.ok a, s) => f a rounds s
      | some (.raise e, s) => some (.raise e, s)
      | some (.jump tag, s) => some (.jump tag, s)
      | none => none := rfl

@[simp] theorem get_bind (f : σ → CallM σ β) (rounds : Nat) (s : σ) :
    (get >>= f) rounds s = f s rounds s := rfl

@[simp] theorem modify_bind (g : σ → σ) (f : Unit → CallM σ β) (rounds : Nat) (s : σ) :
    (modify g >>= f) rounds s = f () rounds (g s) := rfl

@[simp] theorem lift_ok_bind (a : α) (f : α → CallM σ β) (rounds : Nat) (s : σ) :
    (lift (.ok a) >>= f) rounds s = f a rounds s := rfl

@[simp] theorem lift_raise_bind (e : RubyException) (f : α → CallM σ β) (rounds : Nat) (s : σ) :
    (lift (.raise e) >>= f) rounds s = some (.raise e, s) := rfl

theorem bind_run_ok {m : CallM σ α} {rounds : Nat} {s t : σ} (a : α) (f : α → CallM σ β)
    (h : m rounds s = some (.ok a, t)) : (m >>= f) rounds s = f a rounds t := by
  rw [bind_run, h]

theorem bind_run_raise {m : CallM σ α} {rounds : Nat} {s t : σ} {e : RubyException}
    (f : α → CallM σ β) (h : m rounds s = some (.raise e, t)) :
    (m >>= f) rounds s = some (.raise e, t) := by
  rw [bind_run, h]

theorem bind_run_jump {m : CallM σ α} {rounds : Nat} {s t : σ} {tag : String}
    (f : α → CallM σ β) (h : m rounds s = some (.jump tag, t)) :
    (m >>= f) rounds s = some (.jump tag, t) := by
  rw [bind_run, h]

theorem bind_run_none {m : CallM σ α} {rounds : Nat} {s : σ} (f : α → CallM σ β)
    (h : m rounds s = none) : (m >>= f) rounds s = none := by
  rw [bind_run, h]

/-- A sequence ends where a part of it raises or jumps. -/
theorem bind_exit {m : CallM σ α} {f : α → CallM σ β} {rounds : Nat} {s t u : σ} {o : Outcome α}
    {o' : Outcome β} (h : m rounds s = some (o, t)) (ho : ¬ o.Returns)
    (hrun : (m >>= f) rounds s = some (o', u)) : u = t := by
  rw [bind_run, h] at hrun
  cases o with
  | ok a => exact absurd (Outcome.returns_ok a) ho
  | raise e => exact (congrArg Prod.snd (Option.some.inj hrun)).symm
  | jump tag => exact (congrArg Prod.snd (Option.some.inj hrun)).symm

theorem bind_exit_not_returns {m : CallM σ α} {f : α → CallM σ β} {rounds : Nat} {s t u : σ}
    {o : Outcome α} {o' : Outcome β} (h : m rounds s = some (o, t)) (ho : ¬ o.Returns)
    (hrun : (m >>= f) rounds s = some (o', u)) : ¬ o'.Returns := by
  rw [bind_run, h] at hrun
  cases o with
  | ok a => exact absurd (Outcome.returns_ok a) ho
  | raise e =>
      rw [← (Prod.mk.inj (Option.some.inj hrun)).1]
      exact Outcome.not_returns_raise e
  | jump tag =>
      rw [← (Prod.mk.inj (Option.some.inj hrun)).1]
      exact Outcome.not_returns_jump tag

theorem bind_assoc {γ : Type} (m : CallM σ α) (f : α → CallM σ β) (g : β → CallM σ γ) :
    ((m >>= f) >>= g) = (m >>= fun a => f a >>= g) := by
  funext rounds s
  rw [bind_run, bind_run, bind_run]
  cases m rounds s with
  | none => rfl
  | some r =>
      obtain ⟨o, t⟩ := r
      cases o <;> rfl

theorem pure_bind (a : α) (f : α → CallM σ β) : (pure a >>= f) = f a := rfl

theorem bind_pure (m : CallM σ α) : (m >>= pure) = m := by
  funext rounds s
  rw [bind_run]
  rcases m rounds s with _ | ⟨o, t⟩
  · rfl
  · cases o <;> rfl

/-- A clause that returns leaves the outcome alone. -/
theorem ensure_run {m : CallM σ α} {clause : CallM σ Unit} {rounds : Nat} {s t u : σ}
    {o : Outcome α} (h : m rounds s = some (o, t)) (hclause : clause rounds t = some (.ok (), u)) :
    ensure m clause rounds s = some (o, u) := by
  rw [ensure, h]
  exact bind_run_ok () _ hclause

/-- The clause has run at the end, whatever the exits. -/
theorem ensure_eq_some {m : CallM σ α} {clause : CallM σ Unit} {rounds : Nat} {s u : σ}
    {r : Outcome α} (h : ensure m clause rounds s = some (r, u)) :
    ∃ o o' t, m rounds s = some (o, t) ∧ clause rounds t = some (o', u) := by
  unfold ensure at h
  rcases hm : m rounds s with _ | ⟨o, t⟩
  · rw [hm] at h
    cases h
  · simp only [hm, bind_run] at h
    rcases hclause : clause rounds t with _ | ⟨o', v⟩
    · rw [hclause] at h
      cases h
    · rw [hclause] at h
      cases o' with
      | ok a => exact ⟨o, _, t, rfl, (Prod.mk.inj (Option.some.inj h)).2 ▸ hclause⟩
      | raise e => exact ⟨o, _, t, rfl, (Prod.mk.inj (Option.some.inj h)).2 ▸ hclause⟩
      | jump tag => exact ⟨o, _, t, rfl, (Prod.mk.inj (Option.some.inj h)).2 ▸ hclause⟩

/-- A sequence with a clause returns where both do. -/
theorem clause_returns {m : CallM σ α} {clause : CallM σ Unit} {rounds : Nat} {s u : σ}
    {r : Outcome α} (h : ensure m clause rounds s = some (r, u)) (hr : r.Returns) {o : Outcome α}
    {t : σ} (hm : m rounds s = some (o, t)) {o' : Outcome Unit}
    (hclause : clause rounds t = some (o', u)) : o'.Returns := by
  by_contra ho'
  rw [ensure, hm] at h
  exact bind_exit_not_returns hclause ho' h hr

theorem ensure_none {m : CallM σ α} {clause : CallM σ Unit} {rounds : Nat} {s : σ}
    (h : m rounds s = none) : ensure m clause rounds s = none := by
  rw [ensure, h]

/-! ## One round of a loop -/

section Loops

variable {next : CallM σ (Option α)} {body : β → α → CallM σ β} {rounds : Nat} {s t : σ}

theorem whileRounds_none (h : next rounds s = some (.ok none, t)) (limit : Nat) (b : β) :
    whileRounds next body limit b rounds s = some (.ok b, t) := by
  cases limit with
  | zero => exact bind_run_ok none _ h
  | succ limit => exact bind_run_ok none _ h

theorem whileRounds_raise {e : RubyException} (h : next rounds s = some (.raise e, t))
    (limit : Nat) (b : β) : whileRounds next body limit b rounds s = some (.raise e, t) := by
  cases limit with
  | zero => exact bind_run_raise _ h
  | succ limit => exact bind_run_raise _ h

theorem whileRounds_jump {tag : String} (h : next rounds s = some (.jump tag, t)) (limit : Nat)
    (b : β) : whileRounds next body limit b rounds s = some (.jump tag, t) := by
  cases limit with
  | zero => exact bind_run_jump _ h
  | succ limit => exact bind_run_jump _ h

theorem whileRounds_zero {a : α} (h : next rounds s = some (.ok (some a), t)) (b : β) :
    whileRounds next body 0 b rounds s = none := bind_run_ok (some a) _ h

theorem whileRounds_succ {a : α} (h : next rounds s = some (.ok (some a), t)) (limit : Nat)
    (b : β) :
    whileRounds next body (limit + 1) b rounds s =
      (body b a >>= whileRounds next body limit) rounds t := bind_run_ok (some a) _ h

theorem unlessStop_ok {m : CallM σ α} {a : α} (b : β) (f : α → CallM σ β)
    (h : m rounds s = some (.ok a, t)) : m.unlessStop b f rounds s = f a rounds t := by
  rw [unlessStop, h]

theorem unlessStop_raise {m : CallM σ α} {e : RubyException} (b : β) (f : α → CallM σ β)
    (h : m rounds s = some (.raise e, t)) :
    m.unlessStop b f rounds s =
      if e.isStopIteration then some (.ok b, t) else some (.raise e, t) := by
  rw [unlessStop, h]

theorem unlessStop_jump {m : CallM σ α} {tag : String} (b : β) (f : α → CallM σ β)
    (h : m rounds s = some (.jump tag, t)) :
    m.unlessStop b f rounds s = some (.jump tag, t) := by
  rw [unlessStop, h]

theorem unlessStop_none {m : CallM σ α} (b : β) (f : α → CallM σ β) (h : m rounds s = none) :
    m.unlessStop b f rounds s = none := by
  rw [unlessStop, h]

theorem loopRounds_none (h : next rounds s = some (.ok none, t)) (limit : Nat) (b : β) :
    loopRounds next body limit b rounds s = some (.ok b, t) := by
  cases limit with
  | zero => exact unlessStop_ok b _ h
  | succ limit => exact unlessStop_ok b _ h

theorem loopRounds_raise {e : RubyException} (h : next rounds s = some (.raise e, t))
    (limit : Nat) (b : β) :
    loopRounds next body limit b rounds s =
      if e.isStopIteration then some (.ok b, t) else some (.raise e, t) := by
  cases limit with
  | zero => exact unlessStop_raise b _ h
  | succ limit => exact unlessStop_raise b _ h

theorem loopRounds_jump {tag : String} (h : next rounds s = some (.jump tag, t)) (limit : Nat)
    (b : β) : loopRounds next body limit b rounds s = some (.jump tag, t) := by
  cases limit with
  | zero => exact unlessStop_jump b _ h
  | succ limit => exact unlessStop_jump b _ h

theorem loopRounds_zero {a : α} (h : next rounds s = some (.ok (some a), t)) (b : β) :
    loopRounds next body 0 b rounds s = none := unlessStop_ok b _ h

theorem loopRounds_succ {a : α} (h : next rounds s = some (.ok (some a), t)) (limit : Nat)
    (b : β) :
    loopRounds next body (limit + 1) b rounds s =
      (body b a).unlessStop b (loopRounds next body limit) rounds t := unlessStop_ok b _ h

end Loops

section Until

variable {finished : β → Bool} {body : β → CallM σ β} {rounds : Nat} {s t : σ}

theorem firstRounds_succ (limit : Nat) (b : β) :
    firstRounds finished body (limit + 1) b =
      (firstRounds finished body limit b >>= fun c => if finished c then pure c else body c) := by
  induction limit generalizing b with
  | zero =>
      change (if finished b then pure b else body b >>= pure) = if finished b then pure b else body b
      rw [bind_pure]
  | succ limit ih =>
      rw [firstRounds, firstRounds]
      cases hfinished : finished b with
      | true =>
          rw [if_pos rfl, if_pos rfl, pure_bind, hfinished]
          rfl
      | false =>
          rw [if_neg Bool.false_ne_true, if_neg Bool.false_ne_true, bind_assoc]
          exact congrArg _ (funext ih)

theorem untilRounds_finished {b : β} (hfinished : finished b = true) (limit : Nat) :
    untilRounds finished body limit b = pure b := by
  cases limit with
  | zero => rw [untilRounds, if_pos hfinished]
  | succ limit => rw [untilRounds, if_pos hfinished]

/-- A loop is its first rounds, if it is over then. -/
theorem untilRounds_eq (limit : Nat) (b : β) :
    untilRounds finished body limit b =
      (firstRounds finished body limit b >>= fun c => if finished c then pure c else diverge) := by
  induction limit generalizing b with
  | zero => rfl
  | succ limit ih =>
      rw [untilRounds, firstRounds]
      cases hfinished : finished b with
      | true =>
          rw [if_pos rfl, if_pos rfl, pure_bind, hfinished]
          rfl
      | false =>
          rw [if_neg Bool.false_ne_true, if_neg Bool.false_ne_true, bind_assoc]
          exact congrArg _ (funext ih)

theorem bind_eq_ok {m : CallM σ α} {f : α → CallM σ β} {b : β}
    (h : (m >>= f) rounds s = some (.ok b, t)) :
    ∃ a u, m rounds s = some (.ok a, u) ∧ f a rounds u = some (.ok b, t) := by
  rw [bind_run] at h
  rcases hrun : m rounds s with _ | ⟨o, u⟩
  · rw [hrun] at h
    cases h
  · rw [hrun] at h
    cases o with
    | ok a => exact ⟨a, u, rfl, h⟩
    | raise e => cases h
    | jump tag => cases h

/-- A loop that is not over and comes to its end has a round. -/
theorem untilRounds_eq_ok {b c : β} {limit : Nat} (hfinished : ¬ finished b = true)
    (h : untilRounds finished body limit b rounds s = some (.ok c, t)) :
    ∃ limit' d u, body b rounds s = some (.ok d, u) ∧
      untilRounds finished body limit' d rounds u = some (.ok c, t) := by
  cases limit with
  | zero =>
      rw [untilRounds, if_neg hfinished] at h
      cases h
  | succ limit =>
      rw [untilRounds, if_neg hfinished] at h
      obtain ⟨d, u, hbody, hrest⟩ := bind_eq_ok h
      exact ⟨limit, d, u, hbody, hrest⟩

theorem firstRounds_succ_run {b c : β} {limit : Nat}
    (h : firstRounds finished body limit b rounds s = some (.ok c, t)) :
    firstRounds finished body (limit + 1) b rounds s =
      (if finished c then pure c else body c : CallM σ β) rounds t := by
  rw [firstRounds_succ]
  exact bind_run_ok c _ h

theorem firstRounds_of_succ {b d : β} {limit : Nat}
    (h : firstRounds finished body (limit + 1) b rounds s = some (.ok d, t)) :
    ∃ c u, firstRounds finished body limit b rounds s = some (.ok c, u) ∧
      (if finished c then pure c else body c : CallM σ β) rounds u = some (.ok d, t) := by
  rw [firstRounds_succ] at h
  exact bind_eq_ok h

theorem firstRounds_add {b c : β} {limit : Nat}
    (h : firstRounds finished body limit b rounds s = some (.ok c, t)) (hc : finished c = true)
    (more : Nat) : firstRounds finished body (limit + more) b rounds s = some (.ok c, t) := by
  induction more with
  | zero => exact h
  | succ more ih =>
      rw [← Nat.add_assoc, firstRounds_succ_run ih, hc, if_pos rfl]
      rfl

/-- The rounds of a loop that comes to its end all return. -/
theorem firstRounds_all {b c : β} {limit : Nat}
    (h : firstRounds finished body limit b rounds s = some (.ok c, t)) (hc : finished c = true)
    (k : Nat) : ∃ d u, firstRounds finished body k b rounds s = some (.ok d, u) := by
  rcases Nat.le_total limit k with hle | hle
  · obtain ⟨more, rfl⟩ := Nat.exists_eq_add_of_le hle
    exact ⟨c, t, firstRounds_add h hc more⟩
  · obtain ⟨more, rfl⟩ := Nat.exists_eq_add_of_le hle
    clear hc hle
    induction more generalizing c t with
    | zero => exact ⟨c, t, h⟩
    | succ more ih =>
        obtain ⟨d, u, hd, -⟩ := firstRounds_of_succ h
        exact ih hd

/-- A loop that ends. -/
theorem loopUntil_eq_ok_iff {b c : β} :
    loopUntil finished body b rounds s = some (.ok c, t) ↔
      firstRounds finished body rounds b rounds s = some (.ok c, t) ∧ finished c = true := by
  rw [loopUntil, untilRounds_eq]
  constructor
  · intro h
    obtain ⟨d, u, hd, hlast⟩ := bind_eq_ok h
    cases hfinished : finished d with
    | true =>
        rw [hfinished, if_pos rfl, pure_run] at hlast
        obtain ⟨hdc, rfl⟩ := Prod.mk.inj (Option.some.inj hlast)
        obtain rfl := Outcome.ok.inj hdc
        exact ⟨hd, hfinished⟩
    | false =>
        rw [hfinished, if_neg Bool.false_ne_true] at hlast
        cases hlast
  · rintro ⟨h, hfinished⟩
    rw [bind_run_ok c _ h, hfinished, if_pos rfl]
    rfl

end Until

/-! ## What a call keeps -/

/-- Every run leaves this reading of the state as it was. -/
def Keeps {γ : Type} (read : σ → γ) (m : CallM σ α) : Prop :=
  ∀ rounds s o t, m rounds s = some (o, t) → read t = read s

section Keeps

variable {γ : Type} {read : σ → γ}

theorem keeps_ofRuby {m : RubyM σ α} (h : ∀ s, read (m s).2 = read s) :
    Keeps read (ofRuby m) := by
  intro rounds s o t hrun
  obtain rfl : (m s).2 = t := congrArg Prod.snd (Option.some.inj hrun)
  exact h s

theorem keeps_pure (a : α) : Keeps read (pure a : CallM σ α) := keeps_ofRuby fun _ => rfl

theorem keeps_lift (o : Outcome α) : Keeps read (lift o : CallM σ α) := keeps_ofRuby fun _ => rfl

theorem keeps_get : Keeps read (get : CallM σ σ) := keeps_ofRuby fun _ => rfl

theorem keeps_diverge : Keeps read (diverge : CallM σ α) := by
  intro rounds s o t hrun
  cases hrun

theorem Keeps.bind {m : CallM σ α} {f : α → CallM σ β} (hm : Keeps read m)
    (hf : ∀ a, Keeps read (f a)) : Keeps read (m >>= f) := by
  intro rounds s o u hrun
  rw [bind_run] at hrun
  rcases hfirst : m rounds s with _ | ⟨a | e | tag, t⟩
  · rw [hfirst] at hrun
    cases hrun
  · rw [hfirst] at hrun
    calc read u = read t := hf a rounds t o u hrun
      _ = read s := hm rounds s _ t hfirst
  all_goals
    rw [hfirst] at hrun
    obtain rfl := congrArg Prod.snd (Option.some.inj hrun)
    exact hm rounds s _ _ hfirst

/-- The state at the end of a sequence whose last part changes nothing. -/
theorem bind_eq_some_of_keeps {m : CallM σ α} {f : α → CallM σ β} (hf : ∀ a, Keeps id (f a))
    {rounds : Nat} {s u : σ} {r : Outcome β} (h : (m >>= f) rounds s = some (r, u)) :
    ∃ o, m rounds s = some (o, u) := by
  rw [bind_run] at h
  rcases hm : m rounds s with _ | ⟨a | e | tag, t⟩
  · rw [hm] at h
    cases h
  · rw [hm] at h
    obtain rfl : u = t := hf a rounds t r u h
    exact ⟨_, rfl⟩
  all_goals
    rw [hm] at h
    obtain rfl := congrArg Prod.snd (Option.some.inj h)
    exact ⟨_, rfl⟩

/-- A part of what is kept is kept. -/
theorem Keeps.comp {δ : Type} {m : CallM σ α} (h : Keeps read m) (f : γ → δ) :
    Keeps (f ∘ read) m := fun rounds s o t hrun => congrArg f (h rounds s o t hrun)

theorem Keeps.unlessStop {m : CallM σ α} {f : α → CallM σ β} (hm : Keeps read m)
    (hf : ∀ a, Keeps read (f a)) (b : β) : Keeps read (m.unlessStop b f) := by
  intro rounds s o u hrun
  rw [CallM.unlessStop] at hrun
  rcases hfirst : m rounds s with _ | ⟨a | e | tag, t⟩
  · rw [hfirst] at hrun
    cases hrun
  · rw [hfirst] at hrun
    calc read u = read t := hf a rounds t o u hrun
      _ = read s := hm rounds s _ t hfirst
  · rw [hfirst] at hrun
    obtain rfl : t = u := by
      cases hstop : e.isStopIteration with
      | true =>
          simp only [hstop] at hrun
          exact congrArg Prod.snd (Option.some.inj hrun)
      | false =>
          simp only [hstop] at hrun
          exact congrArg Prod.snd (Option.some.inj hrun)
    exact hm rounds s _ _ hfirst
  · rw [hfirst] at hrun
    obtain rfl : t = u := congrArg Prod.snd (Option.some.inj hrun)
    exact hm rounds s _ _ hfirst

/-- A loop leaves a reading of the state as it was exactly when each of its rounds meets a
condition, if one round does so exactly when it meets it, and does not return otherwise. -/
theorem untilRounds_kept_iff {finished : β → Bool} {body : β → CallM σ β} {rounds : Nat}
    {Meets : β → σ → Prop}
    (hround : ∀ b s o t, body b rounds s = some (o, t) →
      (read t = read s ↔ Meets b s) ∧ (o.Returns → Meets b s))
    {limit : Nat} {b : β} {s t : σ} {o : Outcome β}
    (hrun : untilRounds finished body limit b rounds s = some (o, t)) :
    read t = read s ↔ ∀ k c u, firstRounds finished body k b rounds s = some (.ok c, u) →
      finished c = false → Meets c u := by
  have hfinal {b : β} {s : σ} (hfinished : finished b = true) {limit : Nat}
      (hrun : untilRounds finished body limit b rounds s = some (o, t)) :
      read t = read s ↔ ∀ k c u, firstRounds finished body k b rounds s = some (.ok c, u) →
        finished c = false → Meets c u := by
    rw [untilRounds_finished hfinished] at hrun
    obtain rfl : s = t := congrArg Prod.snd (Option.some.inj hrun)
    refine iff_of_true rfl fun k c u hk hc => ?_
    obtain rfl : b = c := by
      cases k with
      | zero => exact Outcome.ok.inj (Prod.mk.inj (Option.some.inj hk)).1
      | succ k =>
          rw [firstRounds, if_pos hfinished] at hk
          exact Outcome.ok.inj (Prod.mk.inj (Option.some.inj hk)).1
    exact absurd (hfinished.symm.trans hc) (by simp)
  induction limit generalizing b s with
  | zero =>
      cases hfinished : finished b with
      | true => exact hfinal hfinished hrun
      | false =>
          rw [untilRounds, hfinished, if_neg Bool.false_ne_true] at hrun
          cases hrun
  | succ limit ih =>
      cases hfinished : finished b with
      | true => exact hfinal hfinished hrun
      | false =>
          have hsucc (k : Nat) : firstRounds finished body (k + 1) b =
              (body b >>= firstRounds finished body k) := by
            rw [firstRounds, hfinished, if_neg Bool.false_ne_true]
          rw [untilRounds, hfinished, if_neg Bool.false_ne_true] at hrun
          rcases hbody : body b rounds s with _ | ⟨o', v⟩
          · rw [bind_run_none _ hbody] at hrun
            cases hrun
          · obtain ⟨hread, hreturns⟩ := hround b s o' v hbody
            by_cases ho' : o'.Returns
            · obtain ⟨d, rfl⟩ := ho'
              have hmeets := hreturns (Outcome.returns_ok d)
              rw [bind_run_ok _ _ hbody] at hrun
              have hrest := ih hrun
              rw [hread.mpr hmeets] at hrest
              refine hrest.trans ?_
              constructor
              · rintro h (_ | k) c u hk hc
                · obtain ⟨hbc, rfl⟩ := Prod.mk.inj (Option.some.inj hk)
                  obtain rfl := Outcome.ok.inj hbc
                  exact hmeets
                · rw [hsucc, bind_run_ok _ _ hbody] at hk
                  exact h k c u hk hc
              · intro h k c u hk hc
                refine h (k + 1) c u ?_ hc
                rw [hsucc, bind_run_ok _ _ hbody]
                exact hk
            · obtain rfl := bind_exit hbody ho' hrun
              refine hread.trans ?_
              constructor
              · rintro h (_ | k) c u hk hc
                · obtain ⟨hbc, rfl⟩ := Prod.mk.inj (Option.some.inj hk)
                  obtain rfl := Outcome.ok.inj hbc
                  exact h
                · rw [hsucc] at hk
                  exact absurd (Outcome.returns_ok c) (bind_exit_not_returns hbody ho' hk)
              · exact fun h => h 0 b s rfl hfinished

variable {next : CallM σ (Option α)} {body : β → α → CallM σ β}

theorem Keeps.whileSome (hnext : Keeps read next) (hbody : ∀ b a, Keeps read (body b a)) (b : β) :
    Keeps read (CallM.whileSome next body b) := by
  have hrounds (limit : Nat) (b : β) : Keeps read (whileRounds next body limit b) := by
    induction limit generalizing b with
    | zero =>
        refine hnext.bind fun a => ?_
        cases a with
        | none => exact keeps_pure b
        | some a => exact keeps_diverge
    | succ limit ih =>
        refine hnext.bind fun a => ?_
        cases a with
        | none => exact keeps_pure b
        | some a => exact (hbody b a).bind ih
  exact fun rounds => hrounds rounds b rounds

theorem Keeps.loopSome (hnext : Keeps read next) (hbody : ∀ b a, Keeps read (body b a)) (b : β) :
    Keeps read (CallM.loopSome next body b) := by
  have hrounds (limit : Nat) (b : β) : Keeps read (loopRounds next body limit b) := by
    induction limit generalizing b with
    | zero =>
        refine hnext.unlessStop (fun a => ?_) b
        cases a with
        | none => exact keeps_pure b
        | some a => exact keeps_diverge
    | succ limit ih =>
        refine hnext.unlessStop (fun a => ?_) b
        cases a with
        | none => exact keeps_pure b
        | some a => exact (hbody b a).unlessStop ih b
  exact fun rounds => hrounds rounds b rounds

theorem Keeps.loopUntil {finished : β → Bool} {body : β → CallM σ β}
    (hbody : ∀ b, Keeps read (body b)) (b : β) :
    Keeps read (CallM.loopUntil finished body b) := by
  have hrounds (limit : Nat) (b : β) : Keeps read (untilRounds finished body limit b) := by
    induction limit generalizing b with
    | zero =>
        rw [untilRounds]
        split
        · exact keeps_pure b
        · exact keeps_diverge
    | succ limit ih =>
        rw [untilRounds]
        split
        · exact keeps_pure b
        · exact (hbody b).bind ih
  exact fun rounds => hrounds rounds b rounds

end Keeps

/-! ## Two calls that go the same way -/

section Relates

variable {τ : Type} {R : σ → τ → Prop}

/-- Where the states are related, both calls come to the same and to related states, or
neither comes to an end. -/
def Relates (R : σ → τ → Prop) (m : CallM σ α) (f : CallM τ α) : Prop :=
  ∀ rounds s t, R s t → Option.Rel (fun x y => x.1 = y.1 ∧ R x.2 y.2) (m rounds s) (f rounds t)

theorem relates_pure (a : α) : Relates R (pure a : CallM σ α) (pure a : CallM τ α) :=
  fun _ _ _ h => .some ⟨rfl, h⟩

theorem relates_lift (o : Outcome α) : Relates R (lift o : CallM σ α) (lift o : CallM τ α) :=
  fun _ _ _ h => .some ⟨rfl, h⟩

theorem relates_diverge : Relates R (diverge : CallM σ α) (diverge : CallM τ α) :=
  fun _ _ _ _ => .none

theorem Relates.bind {m : CallM σ α} {f : CallM τ α} {k : α → CallM σ β} {l : α → CallM τ β}
    (h : Relates R m f) (hk : ∀ a, Relates R (k a) (l a)) : Relates R (m >>= k) (f >>= l) := by
  intro rounds s t hst
  have hfirst := h rounds s t hst
  rcases hm : m rounds s with _ | ⟨o, s'⟩
  · rw [hm] at hfirst
    rcases hf : f rounds t with _ | y
    · rw [bind_run_none k hm, bind_run_none l hf]
      exact .none
    · rw [hf] at hfirst
      cases hfirst
  · rw [hm] at hfirst
    rcases hf : f rounds t with _ | ⟨o', t'⟩
    · rw [hf] at hfirst
      cases hfirst
    · rw [hf] at hfirst
      obtain ⟨hsame, hrelated⟩ : o = o' ∧ R s' t' := by
        cases hfirst with
        | some h => exact h
      subst hsame
      cases o with
      | ok a =>
          rw [bind_run_ok a k hm, bind_run_ok a l hf]
          exact hk a rounds s' t' hrelated
      | raise e =>
          rw [bind_run_raise k hm, bind_run_raise l hf]
          exact .some ⟨rfl, hrelated⟩
      | jump tag =>
          rw [bind_run_jump k hm, bind_run_jump l hf]
          exact .some ⟨rfl, hrelated⟩

theorem Relates.whileSome {next : CallM σ (Option α)} {next' : CallM τ (Option α)}
    {body : β → α → CallM σ β} {body' : β → α → CallM τ β} (hnext : Relates R next next')
    (hbody : ∀ b a, Relates R (body b a) (body' b a)) (b : β) :
    Relates R (CallM.whileSome next body b) (CallM.whileSome next' body' b) := by
  have hrounds (limit : Nat) (b : β) :
      Relates R (whileRounds next body limit b) (whileRounds next' body' limit b) := by
    induction limit generalizing b with
    | zero =>
        refine hnext.bind fun a => ?_
        cases a with
        | none => exact relates_pure b
        | some a => exact relates_diverge
    | succ limit ih =>
        refine hnext.bind fun a => ?_
        cases a with
        | none => exact relates_pure b
        | some a => exact (hbody b a).bind ih
  exact fun rounds => hrounds rounds b rounds

end Relates

end CallM

end Sqlite3Ruby
