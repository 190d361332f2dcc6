import Sqlite3Ruby.Ruby.Loops

/-!
# Sources that hand out a list

A cursor is what is left of a list, with a mark once its end has been met. A source follows
a cursor when each of its answers is the next of the list. Every way of going through a
source, to the end or up to a `break`, takes from the front of the cursor.

## Implementation notes

A block that breaks keeps what it has been called with beside the state, where it is
still found after the `break`.
-/

namespace Sqlite3Ruby

/-- What is still to come, and whether the end has been met. -/
structure Cursor (β : Type) where
  rest : List β
  ended : Bool
  deriving DecidableEq

namespace Cursor

variable {β : Type}

/-- The first `n`, as far as there are so many. The end is met in asking for one more than there
are. -/
def take (n : Nat) (c : Cursor β) : List β × Cursor β :=
  (c.rest.take n, ⟨c.rest.drop n, c.ended || c.rest.length < n⟩)

/-- All that is left. -/
def takeAll (c : Cursor β) : List β × Cursor β := (c.rest, ⟨[], true⟩)

@[simp] theorem take_zero (c : Cursor β) : c.take 0 = ([], c) := by
  obtain ⟨rest, ended⟩ := c
  simp [take]

@[simp] theorem take_nil (n : Nat) (ended : Bool) :
    (⟨[], ended⟩ : Cursor β).take (n + 1) = ([], ⟨[], true⟩) := by simp [take]

theorem take_cons (n : Nat) (b : β) (rest : List β) (ended : Bool) :
    (⟨b :: rest, ended⟩ : Cursor β).take (n + 1) =
      (b :: ((⟨rest, ended⟩ : Cursor β).take n).1, ((⟨rest, ended⟩ : Cursor β).take n).2) := by
  simp [take]

theorem take_append (n : Nat) (c : Cursor β) : (c.take n).1 ++ (c.take n).2.rest = c.rest :=
  List.take_append_drop n c.rest

end Cursor

namespace CallM

variable {σ α β γ : Type}

/-! ## Loops with a `break` -/

/-- A block that is called with `n` elements and breaks. -/
def breakAt (n : Nat) (_ : Unit) (a : α) : CallM (σ × List α) Unit := fun _ s =>
  if (s.2 ++ [a]).length = n then some (.jump "break", s.1, s.2 ++ [a])
  else some (.ok (), s.1, s.2 ++ [a])

/-- What a loop has called its block with, when it returns or the block breaks. -/
def untilBreak (loop : CallM (σ × List α) Unit) : CallM σ (List α) := fun rounds s =>
  match loop rounds (s, []) with
  | some (.ok _, t) => some (.ok t.2, t.1)
  | some (.raise e, t) => some (.raise e, t.1)
  | some (.jump tag, t) =>
      if tag = "break" then some (.ok t.2, t.1) else some (.jump tag, t.1)
  | none => none

/-- `first(n)` of a loop with `while`. -/
def whileFirst (next : CallM σ (Option α)) (n : Nat) : CallM σ (List α) :=
  if n = 0 then pure [] else untilBreak (whileSome (beside next) (breakAt n) ())

/-- `first(n)` of a `loop`. -/
def loopFirst (next : CallM σ (Option α)) (n : Nat) : CallM σ (List α) :=
  if n = 0 then pure [] else untilBreak (loopSome (beside next) (breakAt n) ())

/-- A block that appends what it makes of each element. -/
def appendMap (f : α → γ) (cs : List γ) (a : α) : CallM σ (List γ) := pure (cs ++ [f a])

/-! ## Sources that follow a cursor -/

/-- `next` answers with the elements of the cursor through `g`, and with nothing at its end. -/
structure Follows (next : CallM σ (Option α)) (g : β → α) (holds : Cursor β → σ → Prop) : Prop where
  nil : ∀ {ended s}, holds ⟨[], ended⟩ s →
    ∃ t, holds ⟨[], true⟩ t ∧ ∀ rounds, next rounds s = some (.ok none, t)
  cons : ∀ {b rest ended s}, holds ⟨b :: rest, ended⟩ s →
    ∃ t, holds ⟨rest, ended⟩ t ∧ ∀ rounds, next rounds s = some (.ok (some (g b)), t)

namespace Follows

variable {next : CallM σ (Option α)} {g : β → α} {holds : Cursor β → σ → Prop} {rounds : Nat}

/-- A single call. -/
theorem one (h : Follows next g holds) {c : Cursor β} {s : σ} (hs : holds c s) (rounds : Nat) :
    ∃ t, holds (c.take 1).2 t ∧ next rounds s = some (.ok ((c.take 1).1.map g).head?, t) := by
  obtain ⟨rest, ended⟩ := c
  cases rest with
  | nil =>
      obtain ⟨t, ht, hnext⟩ := h.nil hs
      exact ⟨t, by simpa using ht, hnext rounds⟩
  | cons b rest =>
      obtain ⟨t, ht, hnext⟩ := h.cons hs
      exact ⟨t, by simpa [Cursor.take_cons] using ht, hnext rounds⟩

/-- The rounds of a loop that goes on to the end. -/
theorem all (h : Follows next g holds) (rounds : Nat) {rest : List β} {ended : Bool} {s : σ}
    (hs : holds ⟨rest, ended⟩ s) {limit : Nat} (hlimit : rest.length ≤ limit) (f : α → γ)
    (cs : List γ) :
    ∃ t, holds ⟨[], true⟩ t ∧
      Course next (appendMap f) rounds limit cs s (rest.map g)
        (.last (cs ++ rest.map (f ∘ g))) t := by
  induction rest generalizing s limit cs with
  | nil =>
      obtain ⟨t, ht, hnext⟩ := h.nil hs
      refine ⟨t, ht, ?_⟩
      rw [List.map_nil, List.map_nil, List.append_nil]
      exact .last (hnext rounds)
  | cons b rest ih =>
      obtain ⟨limit, rfl⟩ : ∃ k, limit = k + 1 := ⟨limit - 1, by simp at hlimit; omega⟩
      obtain ⟨t, ht, hnext⟩ := h.cons hs
      obtain ⟨u, hu, hcourse⟩ := ih ht (by simpa using hlimit) (cs ++ [f (g b)])
      refine ⟨u, hu, ?_⟩
      rw [List.map_cons, List.map_cons, List.append_cons]
      exact .round (hnext rounds) rfl hcourse

/-- The rounds of a loop whose block breaks when it has had `n` elements, `m` of them still
to come. -/
theorem upTo (h : Follows next g holds) (rounds : Nat) {n m : Nat} {c : Cursor β} {s : σ}
    (hs : holds c s) {limit : Nat} (hlimit : c.rest.length ≤ limit) {log : List α}
    (hn : log.length + (m + 1) = n) :
    ∃ handed t, holds (c.take (m + 1)).2 t ∧
      Course (beside next) (breakAt n) rounds limit () (s, log) handed
        (if c.rest.length ≤ m then .last () else .jump "break")
        (t, log ++ (c.take (m + 1)).1.map g) := by
  obtain ⟨rest, ended⟩ := c
  induction rest generalizing s limit m log with
  | nil =>
      obtain ⟨t, ht, hnext⟩ := h.nil hs
      refine ⟨[], t, by simpa using ht, ?_⟩
      rw [if_pos (show ([] : List β).length ≤ m from Nat.zero_le m), Cursor.take_nil, List.map_nil,
        List.append_nil]
      exact .last (beside_ok (hnext rounds) log)
  | cons b rest ih =>
      obtain ⟨limit, rfl⟩ : ∃ k, limit = k + 1 := ⟨limit - 1, by simp at hlimit; omega⟩
      obtain ⟨t, ht, hnext⟩ := h.cons hs
      have hbeside := beside_ok (hnext rounds) log
      have hlength : (log ++ [g b]).length = log.length + 1 := by simp
      rw [Cursor.take_cons]
      cases m with
      | zero =>
          refine ⟨[g b], t, by simpa using ht, ?_⟩
          rw [if_neg (by simp), Cursor.take_zero]
          refine .bodyJump hbeside ?_
          rw [breakAt, if_pos (hlength.trans hn)]
          rfl
      | succ m =>
          have hn' : (log ++ [g b]).length + (m + 1) = n := by omega
          obtain ⟨handed, u, hu, hcourse⟩ := ih hn' ht (by simpa using hlimit)
          refine ⟨g b :: handed, u, hu, ?_⟩
          have hbody : breakAt n () (g b) rounds (t, log) = some (.ok (), t, log ++ [g b]) := by
            have hne : (log ++ [g b]).length ≠ n := by omega
            rw [breakAt, if_neg hne]
          simp only [List.length_cons, Nat.add_le_add_iff_right, List.map_cons]
          rw [List.append_cons]
          exact .round hbeside hbody hcourse

/-- A `while` that goes on to the end. -/
theorem whileAll (h : Follows next g holds) {c : Cursor β} {s : σ} (hs : holds c s)
    (hrounds : c.rest.length ≤ rounds) (f : α → γ) :
    ∃ t, holds c.takeAll.2 t ∧
      whileSome next (appendMap f) [] rounds s = some (.ok (c.takeAll.1.map (f ∘ g)), t) := by
  obtain ⟨t, ht, hcourse⟩ := h.all rounds hs hrounds f []
  exact ⟨t, ht, hcourse.whileRounds⟩

/-- A `loop` that goes on to the end. -/
theorem loopAll (h : Follows next g holds) {c : Cursor β} {s : σ} (hs : holds c s)
    (hrounds : c.rest.length ≤ rounds) (f : α → γ) :
    ∃ t, holds c.takeAll.2 t ∧
      loopSome next (appendMap f) [] rounds s = some (.ok (c.takeAll.1.map (f ∘ g)), t) := by
  obtain ⟨t, ht, hcourse⟩ := h.all rounds hs hrounds f []
  exact ⟨t, ht, hcourse.loopRounds⟩

theorem untilBreak_run {loop : CallM (σ × List α) Unit} {s t : σ} {as : List α} {o : Outcome Unit}
    (ho : o = .ok () ∨ o = .jump "break") (h : loop rounds (s, []) = some (o, t, as)) :
    untilBreak loop rounds s = some (.ok as, t) := by
  rcases ho with rfl | rfl
  · simp [untilBreak, h]
  · simp [untilBreak, h]

/-- A `while` that is left by a `break`. -/
theorem whileUpTo (h : Follows next g holds) {c : Cursor β} {s : σ} (hs : holds c s) (n : Nat)
    (hrounds : c.rest.length ≤ rounds) :
    ∃ t, holds (c.take n).2 t ∧ whileFirst next n rounds s = some (.ok ((c.take n).1.map g), t) := by
  cases n with
  | zero => exact ⟨s, by simpa using hs, by simp [whileFirst]⟩
  | succ m =>
      have hn : ([] : List α).length + (m + 1) = m + 1 := Nat.zero_add _
      obtain ⟨handed, t, ht, hcourse⟩ := h.upTo rounds hs hrounds hn
      refine ⟨t, ht, ?_⟩
      rw [whileFirst, if_neg m.succ_ne_zero]
      refine untilBreak_run ?_ hcourse.whileRounds
      split
      · exact Or.inl rfl
      · exact Or.inr rfl

/-- A `loop` that is left by a `break`. -/
theorem loopUpTo (h : Follows next g holds) {c : Cursor β} {s : σ} (hs : holds c s) (n : Nat)
    (hrounds : c.rest.length ≤ rounds) :
    ∃ t, holds (c.take n).2 t ∧ loopFirst next n rounds s = some (.ok ((c.take n).1.map g), t) := by
  cases n with
  | zero => exact ⟨s, by simpa using hs, by simp [loopFirst]⟩
  | succ m =>
      have hn : ([] : List α).length + (m + 1) = m + 1 := Nat.zero_add _
      obtain ⟨handed, t, ht, hcourse⟩ := h.upTo rounds hs hrounds hn
      refine ⟨t, ht, ?_⟩
      rw [loopFirst, if_neg m.succ_ne_zero]
      refine untilBreak_run ?_ hcourse.loopRounds
      split
      · exact Or.inl rfl
      · exact Or.inr rfl

end Follows

end CallM

end Sqlite3Ruby
