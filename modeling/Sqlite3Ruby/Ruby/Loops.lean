import Sqlite3Ruby.Ruby.Call

/-!
# How loops go

The rounds of a `while` and of a `loop` over the same `next` and the same block are the same. They
are told by what the block is called with and by how they end, and the two kinds of
loop differ in what they make of the end.

## Implementation notes

What a block is called with is recorded beside the state, which the code does not see.
-/

namespace Sqlite3Ruby

namespace CallM

variable {σ α β γ : Type}

/-- A call beside a record. -/
def beside (m : CallM σ α) : CallM (σ × List γ) α := fun rounds s =>
  (m rounds s.1).map fun r => (r.1, r.2, s.2)

/-- A block whose calls are recorded. -/
def recorded (block : β → α → CallM σ β) (b : β) (a : α) : CallM (σ × List α) β := fun rounds s =>
  (block b a rounds s.1).map fun r => (r.1, r.2, s.2 ++ [a])

/-- How the rounds of a loop end. -/
inductive LoopExit (β : Type)
  | last (b : β)
  | raise (b : β) (e : RubyException)
  | jump (tag : String)

/-- A `while` hands on what is raised. -/
def LoopExit.whileOutcome : LoopExit β → Outcome β
  | last b => .ok b
  | raise _ e => .raise e
  | jump tag => .jump tag

/-- A `loop` returns for a `StopIteration`. -/
def LoopExit.loopOutcome : LoopExit β → Outcome β
  | last b => .ok b
  | raise b e => if e.isStopIteration then .ok b else .raise e
  | jump tag => .jump tag

/-- The rounds of a loop: what its block is called with, and how they end. There are no more
than `limit` calls of the block. -/
inductive Course (next : CallM σ (Option α)) (body : β → α → CallM σ β) (rounds : Nat) :
    Nat → β → σ → List α → LoopExit β → σ → Prop
  | last {limit b s t} (hnext : next rounds s = some (.ok none, t)) :
      Course next body rounds limit b s [] (.last b) t
  | nextRaise {limit b s e t} (hnext : next rounds s = some (.raise e, t)) :
      Course next body rounds limit b s [] (.raise b e) t
  | nextJump {limit b s tag t} (hnext : next rounds s = some (.jump tag, t)) :
      Course next body rounds limit b s [] (.jump tag) t
  | bodyRaise {limit b s a t e u} (hnext : next rounds s = some (.ok (some a), t))
      (hbody : body b a rounds t = some (.raise e, u)) :
      Course next body rounds (limit + 1) b s [a] (.raise b e) u
  | bodyJump {limit b s a t tag u} (hnext : next rounds s = some (.ok (some a), t))
      (hbody : body b a rounds t = some (.jump tag, u)) :
      Course next body rounds (limit + 1) b s [a] (.jump tag) u
  | round {limit b s a t b' u as x v} (hnext : next rounds s = some (.ok (some a), t))
      (hbody : body b a rounds t = some (.ok b', u))
      (hrest : Course next body rounds limit b' u as x v) :
      Course next body rounds (limit + 1) b s (a :: as) x v

variable {next : CallM σ (Option α)} {body : β → α → CallM σ β} {rounds limit : Nat} {b : β}
  {s t : σ} {as : List α} {x : LoopExit β}

/-- A `while` ends as its rounds do. -/
theorem Course.whileRounds (h : Course next body rounds limit b s as x t) :
    CallM.whileRounds next body limit b rounds s = some (x.whileOutcome, t) := by
  induction h with
  | last hnext => exact whileRounds_none hnext _ _
  | nextRaise hnext => exact whileRounds_raise hnext _ _
  | nextJump hnext => exact whileRounds_jump hnext _ _
  | bodyRaise hnext hbody =>
      rw [whileRounds_succ hnext]
      exact bind_run_raise _ hbody
  | bodyJump hnext hbody =>
      rw [whileRounds_succ hnext]
      exact bind_run_jump _ hbody
  | round hnext hbody _ ih =>
      rw [whileRounds_succ hnext, bind_run_ok _ _ hbody]
      exact ih

/-- A `loop` ends as its rounds do, but for a `StopIteration`. -/
theorem Course.loopRounds (h : Course next body rounds limit b s as x t) :
    CallM.loopRounds next body limit b rounds s = some (x.loopOutcome, t) := by
  induction h with
  | last hnext => exact loopRounds_none hnext _ _
  | nextRaise hnext =>
      rw [loopRounds_raise hnext, LoopExit.loopOutcome]
      split <;> rfl
  | nextJump hnext => exact loopRounds_jump hnext _ _
  | bodyRaise hnext hbody =>
      rw [loopRounds_succ hnext, unlessStop_raise _ _ hbody, LoopExit.loopOutcome]
      split <;> rfl
  | bodyJump hnext hbody =>
      rw [loopRounds_succ hnext]
      exact unlessStop_jump _ _ hbody
  | round hnext hbody _ ih =>
      rw [loopRounds_succ hnext, unlessStop_ok _ _ hbody]
      exact ih

/-- A loop that finds something hands it on first. -/
theorem Course.head (h : Course next body rounds limit b s as x t) {a : α} {u : σ}
    (hnext : next rounds s = some (.ok (some a), u)) : ∃ rest, as = a :: rest := by
  cases h with
  | last h =>
      rw [hnext] at h
      cases h
  | nextRaise h =>
      rw [hnext] at h
      cases h
  | nextJump h =>
      rw [hnext] at h
      cases h
  | bodyRaise h _ =>
      rw [hnext] at h
      cases h
      exact ⟨[], rfl⟩
  | bodyJump h _ =>
      rw [hnext] at h
      cases h
      exact ⟨[], rfl⟩
  | @round _ _ _ _ _ _ _ as _ _ h _ _ =>
      rw [hnext] at h
      cases h
      exact ⟨as, rfl⟩

/-- A loop comes to an end, or neither kind of it has a result. -/
theorem course_total (next : CallM σ (Option α)) (body : β → α → CallM σ β) (rounds limit : Nat)
    (b : β) (s : σ) :
    (∃ as x t, Course next body rounds limit b s as x t) ∨
      (CallM.whileRounds next body limit b rounds s = none ∧
        CallM.loopRounds next body limit b rounds s = none) := by
  induction limit generalizing b s with
  | zero =>
      rcases hnext : next rounds s with _ | ⟨(_ | a) | e | tag, t⟩
      · exact Or.inr ⟨bind_run_none _ hnext, unlessStop_none b _ hnext⟩
      · exact Or.inl ⟨_, _, _, .last hnext⟩
      · exact Or.inr ⟨whileRounds_zero hnext b, loopRounds_zero hnext b⟩
      · exact Or.inl ⟨_, _, _, .nextRaise hnext⟩
      · exact Or.inl ⟨_, _, _, .nextJump hnext⟩
  | succ limit ih =>
      rcases hnext : next rounds s with _ | ⟨(_ | a) | e | tag, t⟩
      · exact Or.inr ⟨bind_run_none _ hnext, unlessStop_none b _ hnext⟩
      · exact Or.inl ⟨_, _, _, .last hnext⟩
      · rw [whileRounds_succ hnext, loopRounds_succ hnext]
        rcases hbody : body b a rounds t with _ | ⟨b' | e | tag, u⟩
        · exact Or.inr ⟨bind_run_none _ hbody, unlessStop_none b _ hbody⟩
        · rcases ih b' u with ⟨as, x, v, hrest⟩ | ⟨hwhile, hloop⟩
          · exact Or.inl ⟨_, _, _, .round hnext hbody hrest⟩
          · exact Or.inr ⟨(bind_run_ok _ _ hbody).trans hwhile,
              (unlessStop_ok _ _ hbody).trans hloop⟩
        · exact Or.inl ⟨_, _, _, .bodyRaise hnext hbody⟩
        · exact Or.inl ⟨_, _, _, .bodyJump hnext hbody⟩
      · exact Or.inl ⟨_, _, _, .nextRaise hnext⟩
      · exact Or.inl ⟨_, _, _, .nextJump hnext⟩

/-! ## The record -/

section Record

variable {f : α → γ} {block : β → γ → CallM σ β}

theorem beside_ok {m : CallM σ α} {a : α} (h : m rounds s = some (.ok a, t)) (log : List γ) :
    beside m rounds (s, log) = some (.ok a, t, log) := by
  rw [beside, h]
  rfl

theorem recorded_run {c : γ} {o : Outcome β} (h : block b c rounds s = some (o, t))
    (log : List γ) : recorded block b c rounds (s, log) = some (o, t, log ++ [c]) := by
  rw [recorded, h]
  rfl

/-- The calls of the block are recorded one after the other. -/
theorem Course.recorded (h : Course next (fun b a => block b (f a)) rounds limit b s as x t)
    (log : List γ) :
    Course (beside next) (fun b a => CallM.recorded block b (f a)) rounds limit b (s, log) as x
      (t, log ++ as.map f) := by
  induction h generalizing log with
  | last hnext =>
      rw [List.map_nil, List.append_nil]
      exact .last (beside_ok hnext log)
  | nextRaise hnext =>
      rw [List.map_nil, List.append_nil]
      apply Course.nextRaise
      rw [beside, hnext]
      rfl
  | nextJump hnext =>
      rw [List.map_nil, List.append_nil]
      apply Course.nextJump
      rw [beside, hnext]
      rfl
  | bodyRaise hnext hbody => exact .bodyRaise (beside_ok hnext log) (recorded_run hbody log)
  | bodyJump hnext hbody => exact .bodyJump (beside_ok hnext log) (recorded_run hbody log)
  | round hnext hbody _ ih =>
      rw [List.map_cons, List.append_cons]
      exact .round (beside_ok hnext log) (recorded_run hbody log) (ih _)

/-- The code does not see the record. -/
theorem Course.unrecorded {s t : σ × List γ}
    (h : Course (beside next) (fun b a => CallM.recorded block b (f a)) rounds limit b s as x t) :
    Course next (fun b a => block b (f a)) rounds limit b s.1 as x t.1 := by
  have hbeside {o : Outcome (Option α)} {s t : σ × List γ}
      (hnext : beside next rounds s = some (o, t)) : next rounds s.1 = some (o, t.1) := by
    obtain ⟨r, hr, hrt⟩ := Option.map_eq_some_iff.mp hnext
    obtain ⟨rfl, rfl⟩ := Prod.mk.inj hrt
    exact hr
  have hrecorded {b : β} {a : α} {o : Outcome β} {s t : σ × List γ}
      (hbody : CallM.recorded block b (f a) rounds s = some (o, t)) :
      block b (f a) rounds s.1 = some (o, t.1) := by
    obtain ⟨r, hr, hrt⟩ := Option.map_eq_some_iff.mp hbody
    obtain ⟨rfl, rfl⟩ := Prod.mk.inj hrt
    exact hr
  induction h with
  | last hnext => exact .last (hbeside hnext)
  | nextRaise hnext => exact .nextRaise (hbeside hnext)
  | nextJump hnext => exact .nextJump (hbeside hnext)
  | bodyRaise hnext hbody => exact .bodyRaise (hbeside hnext) (hrecorded hbody)
  | bodyJump hnext hbody => exact .bodyJump (hbeside hnext) (hrecorded hbody)
  | round hnext hbody _ ih => exact .round (hbeside hnext) (hrecorded hbody) ih

/-- What a `while` goes through may be made into something else, in `next` or in the block. -/
theorem whileRounds_map (next : CallM σ (Option α)) (f : α → γ) (block : β → γ → CallM σ β)
    (limit : Nat) (b : β) :
    CallM.whileRounds (next >>= fun a => pure (a.map f)) block limit b =
      CallM.whileRounds next (fun b a => block b (f a)) limit b := by
  induction limit generalizing b with
  | zero =>
      rw [CallM.whileRounds, CallM.whileRounds, bind_assoc]
      apply congrArg
      funext a
      cases a <;> rfl
  | succ limit ih =>
      rw [CallM.whileRounds, CallM.whileRounds, bind_assoc]
      apply congrArg
      funext a
      cases a with
      | none => rfl
      | some a => exact congrArg (block b (f a) >>= ·) (funext ih)

theorem Course.mapped (h : Course next (fun b a => block b (f a)) rounds limit b s as x t) :
    Course (next >>= fun a => pure (a.map f)) block rounds limit b s (as.map f) x t := by
  have hmap {s t : σ} {a : Option α} (hnext : next rounds s = some (.ok a, t)) :
      (next >>= fun a => pure (a.map f)) rounds s = some (.ok (a.map f), t) :=
    bind_run_ok a _ hnext
  induction h with
  | last hnext => exact .last (hmap hnext)
  | nextRaise hnext => exact .nextRaise (bind_run_raise _ hnext)
  | nextJump hnext => exact .nextJump (bind_run_jump _ hnext)
  | bodyRaise hnext hbody => exact .bodyRaise (hmap hnext) hbody
  | bodyJump hnext hbody => exact .bodyJump (hmap hnext) hbody
  | round hnext hbody _ ih => exact .round (hmap hnext) hbody ih

end Record

end CallM

end Sqlite3Ruby
