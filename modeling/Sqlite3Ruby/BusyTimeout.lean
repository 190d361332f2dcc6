import Mathlib.Data.Nat.Find
import Mathlib.Logic.Function.Basic
import Mathlib.Tactic.IntervalCases
import Mathlib.Tactic.Positivity
import Sqlite3Ruby.ThreadLocks

/-!
# Waiting for a lock with `busy_handler_timeout=`

SQLite asks the busy handler again and again as long as the lock it wants is taken, with
the number of times it has asked for this lock before. The block of
`busy_handler_timeout=` keeps one deadline for the connection, in an instance variable, and sets it
when it is asked for the first time.

## Implementation notes

The readings of the clock and the timeout are floats, and the deadline is their rounded sum. A
handler is installed between requests, since the connection mutex is held during one.
-/

namespace Sqlite3Ruby.BusyTimeout

open ThreadLocks

/-- What SQLite makes of an attempt to lock. -/
inductive LockAnswer
  | acquired
  | busy
  | again
  deriving DecidableEq

/-! ## One request -/

/-- A request for a lock, from its attempt number `count` on: whether it gets the lock, with the
number of the last attempt and the deadline that is left behind. `free` is what the attempts
find and `clock` what the handler reads after them. -/
def request (timeout : Binary64) (free : Nat → Bool) (clock : Nat → Binary64) :
    Nat → Nat → Binary64 → Option (Bool × Nat × Binary64)
  | 0, _, _ => none
  | rounds + 1, count, deadline =>
      if free count then some (true, count, deadline)
      else
        match busyHandlerTimeout timeout deadline count (clock count) with
        | (.giveUp, deadline) => some (false, count, deadline)
        | (_, deadline) => request timeout free clock rounds (count + 1) deadline

section Request

variable {timeout : Binary64} {free : Nat → Bool} {clock : Nat → Binary64}

/-- The reading after this attempt is later than the timeout allows. -/
def late (timeout : Binary64) (clock : Nat → Binary64) (k : Nat) : Bool :=
  ((clock 0).add timeout).lt (clock k)

/-- The attempt finds the lock taken, and the handler lets it go on. -/
def Waits (timeout : Binary64) (free : Nat → Bool) (clock : Nat → Binary64) (k : Nat) : Prop :=
  free k = false ∧ (k = 0 ∨ late timeout clock k = false)

/-- The request ends with this attempt. -/
def Ends (timeout : Binary64) (free : Nat → Bool) (clock : Nat → Binary64) (k : Nat) :
    Bool → Prop
  | true => free k = true
  | false => free k = false ∧ 0 < k ∧ late timeout clock k = true

/-- The attempt is the last or the request goes on. -/
theorem ends_or_waits (timeout : Binary64) (free : Nat → Bool) (clock : Nat → Binary64) (k : Nat) :
    (∃ got, Ends timeout free clock k got) ∨ Waits timeout free clock k := by
  cases hfree : free k with
  | true => exact Or.inl ⟨true, hfree⟩
  | false =>
      rcases Nat.eq_zero_or_pos k with rfl | hk
      · exact Or.inr ⟨hfree, Or.inl rfl⟩
      · cases hlate : late timeout clock k with
        | true => exact Or.inl ⟨false, hfree, hk, hlate⟩
        | false => exact Or.inr ⟨hfree, Or.inr hlate⟩

theorem request_ends {got : Bool} {k : Nat} {deadline : Binary64} (rounds : Nat)
    (hdeadline : 0 < k → deadline = (clock 0).add timeout) (h : Ends timeout free clock k got) :
    request timeout free clock (rounds + 1) k deadline = some (got, k, deadline) := by
  rw [request]
  cases got with
  | true =>
      have hfree : free k = true := h
      rw [if_pos hfree]
  | false =>
      obtain ⟨hfree, hk, hlate⟩ := h
      have hturn : busyHandlerTimeout timeout deadline k (clock k) = (.giveUp, deadline) := by
        rw [busyHandlerTimeout, if_neg (by omega), if_pos (by rw [hdeadline hk]; exact hlate)]
      rw [hfree, if_neg Bool.false_ne_true, hturn]

theorem request_waits {k : Nat} {deadline : Binary64} (rounds : Nat)
    (hdeadline : 0 < k → deadline = (clock 0).add timeout) (h : Waits timeout free clock k) :
    request timeout free clock (rounds + 1) k deadline =
      request timeout free clock rounds (k + 1) ((clock 0).add timeout) := by
  obtain ⟨hfree, hintime⟩ := h
  rw [request, hfree, if_neg Bool.false_ne_true]
  rcases Nat.eq_zero_or_pos k with rfl | hk
  · rfl
  · have hlate : deadline.lt (clock k) = false := by
      rw [hdeadline hk]
      exact hintime.resolve_left hk.ne'
    have hturn : busyHandlerTimeout timeout deadline k (clock k) = (.sleep, deadline) := by
      rw [busyHandlerTimeout, if_neg (by omega), hlate, if_neg Bool.false_ne_true]
    rw [hturn, hdeadline hk]

/-- Attempts that wait are gone through one after the other. -/
theorem request_from {got : Bool} {last : Nat} (hends : Ends timeout free clock last got) {n k : Nat}
    (hlast : last = k + n) (hwaits : ∀ j, k ≤ j → j < last → Waits timeout free clock j)
    {rounds : Nat} {deadline : Binary64} (hrounds : n < rounds)
    (hdeadline : 0 < k → deadline = (clock 0).add timeout) :
    ∃ deadline', request timeout free clock rounds k deadline = some (got, last, deadline') := by
  induction n generalizing k rounds deadline with
  | zero =>
      obtain ⟨rounds, rfl⟩ : ∃ r, rounds = r + 1 := ⟨rounds - 1, by omega⟩
      obtain rfl : last = k := hlast
      exact ⟨deadline, request_ends rounds hdeadline hends⟩
  | succ n ih =>
      obtain ⟨rounds, rfl⟩ : ∃ r, rounds = r + 1 := ⟨rounds - 1, by omega⟩
      rw [request_waits rounds hdeadline (hwaits k le_rfl (by omega))]
      exact ih (by omega) (fun j hj => hwaits j (by omega)) (by omega) fun _ => rfl

/-- Where a request ends, the attempts before have waited. -/
theorem request_eq_some {got : Bool} {last : Nat} {deadline' : Binary64} (rounds : Nat) {k : Nat}
    {deadline : Binary64}
    (hdeadline : 0 < k → deadline = (clock 0).add timeout)
    (h : request timeout free clock rounds k deadline = some (got, last, deadline')) :
    k ≤ last ∧ Ends timeout free clock last got ∧
      ∀ j, k ≤ j → j < last → Waits timeout free clock j := by
  induction rounds generalizing k deadline with
  | zero => cases h
  | succ rounds ih =>
      rcases ends_or_waits timeout free clock k with ⟨got', hends⟩ | hwaits
      · rw [request_ends rounds hdeadline hends] at h
        obtain ⟨rfl, hlast⟩ := Prod.mk.inj (Option.some.inj h)
        obtain ⟨rfl, -⟩ := Prod.mk.inj hlast
        exact ⟨le_rfl, hends, fun j hj hlt => absurd hlt (by omega)⟩
      · rw [request_waits rounds hdeadline hwaits] at h
        obtain ⟨hle, hends, hrest⟩ := ih (fun _ => rfl) h
        refine ⟨by omega, hends, fun j hj hlt => ?_⟩
        rcases Nat.eq_or_lt_of_le hj with rfl | hj
        · exact hwaits
        · exact hrest j hj hlt

/-- The clock has gone on by a `tick` for each attempt after the second. -/
theorem clock_ge {tick : Int} {n : Nat} (hfirst : (clock 0).units ≤ (clock 1).units)
    (hsleep : ∀ k, 0 < k → k ≤ n → (clock k).units + tick ≤ (clock (k + 1)).units) {k : Nat}
    (hk : k ≤ n) : (clock 0).units + k * tick ≤ (clock (k + 1)).units := by
  induction k with
  | zero => simpa using hfirst
  | succ k ih =>
      calc (clock 0).units + (k + 1 : Nat) * tick = (clock 0).units + k * tick + tick := by
            push_cast
            ring
        _ ≤ (clock (k + 1)).units + tick := by
            have := ih (by omega)
            omega
        _ ≤ (clock (k + 1 + 1)).units := hsleep (k + 1) k.succ_pos hk

/-- One tick more than the whole ticks from `first` to `deadline` is past the deadline. -/
theorem lt_ticks {tick : Int} (htick : 0 < tick) {first deadline : Int} :
    deadline < first + ((deadline - first).toNat / tick.toNat + 1 : Nat) * tick := by
  have hpos : 0 < tick.toNat := by omega
  have hnat := Nat.lt_div_mul_add hpos (a := (deadline - first).toNat)
  rw [← Nat.succ_mul] at hnat
  have hint : ((deadline - first).toNat : Int) <
      ((deadline - first).toNat / tick.toNat + 1 : Nat) * (tick.toNat : Int) := by
    exact_mod_cast hnat
  rw [Int.toNat_of_nonneg htick.le] at hint
  have := Int.self_le_toNat (deadline - first)
  omega

/-- Where each sleep takes a `tick` at least, a request comes to an end, after no more attempts than
there are ticks from its first reading to its deadline. -/
theorem request_comes_to_end {tick : Int} (htick : 0 < tick) {n : Nat}
    (hn : n = (((clock 0).add timeout).units - (clock 0).units).toNat / tick.toNat)
    (hnan : ((clock 0).add timeout).isNaN = false ∧ (clock (n + 2)).isNaN = false)
    (hfirst : (clock 0).units ≤ (clock 1).units)
    (hsleep : ∀ k, 0 < k → k ≤ n + 1 → (clock k).units + tick ≤ (clock (k + 1)).units)
    (stale : Binary64) :
    ∃ got last deadline, last ≤ n + 2 ∧
      request timeout free clock (n + 3) 0 stale = some (got, last, deadline) := by
  have hbound : ∃ got, Ends timeout free clock (n + 2) got := by
    refine (ends_or_waits timeout free clock (n + 2)).resolve_right ?_
    rintro ⟨-, h0 | hintime⟩
    · exact absurd h0 (Nat.succ_ne_zero _)
    · have hticks : ((clock 0).add timeout).units < (clock (n + 2)).units :=
        calc ((clock 0).add timeout).units < (clock 0).units + (n + 1 : Nat) * tick := by
              rw [hn]
              exact lt_ticks htick
          _ ≤ (clock (n + 2)).units := clock_ge hfirst hsleep le_rfl
      have hlate : late timeout clock (n + 2) = true := by
        simp [late, Binary64.lt, hnan.1, hnan.2, hticks]
      exact absurd (hlate.symm.trans hintime) (by simp)
  have hlate : ∃ k, ∃ got, Ends timeout free clock k got := ⟨_, hbound⟩
  classical
  obtain ⟨got, hends⟩ := Nat.find_spec hlate
  have hwaits : ∀ j < Nat.find hlate, Waits timeout free clock j := fun j hj =>
    (ends_or_waits timeout free clock j).resolve_left (Nat.find_min hlate hj)
  have hlast : Nat.find hlate ≤ n + 2 := Nat.find_min' hlate hbound
  obtain ⟨deadline, h⟩ := request_from (k := 0) hends (Nat.zero_add _).symm
    (fun j _ hj => hwaits j hj) (Nat.lt_succ_of_le hlast) fun h0 => absurd h0 (Nat.lt_irrefl 0)
  exact ⟨got, _, deadline, hlast, h⟩

/-- A lock that is never free is given up after twelve attempts of a second each. -/
theorem never_freed_comes_to_end :
    ∃ got last deadline, last ≤ 10 + 2 ∧
      request (.ofInt 10) (fun _ => false) (fun k => .ofInt (100 + k)) (10 + 3) 0 (.ofInt 7) =
        some (got, last, deadline) := by
  refine @request_comes_to_end (.ofInt 10) (fun _ => false) (fun k => .ofInt (100 + k)) (2 ^ 1074)
    (by positivity) 10 (by decide +kernel) (by decide +kernel) (by decide +kernel) ?_ (.ofInt 7)
  intro k hpos hk
  interval_cases k <;> decide +kernel

end Request

/-! ## Any number of connections -/

/-- A request under way: how often the handler has been asked, and the reading of the clock at the
first time, which the program does not keep. -/
structure Request where
  count : Nat
  first : Binary64

/-- A connection with its busy handler, if it has the one of `busy_handler_timeout=`. -/
structure Connection where
  timeout : Option Binary64
  deadline : Binary64
  request : Option Request

/-- The next attempt of a connection to lock. -/
def Connection.attempt (c : Connection) (free : Bool) (now : Binary64) : LockAnswer × Connection :=
  if free then (.acquired, { c with request := none })
  else
    match c.timeout with
    | none => (.busy, { c with request := none })
    | some timeout =>
        let count := (c.request.map (·.count)).getD 0
        let (turn, deadline) := busyHandlerTimeout timeout c.deadline count now
        match turn with
        | .giveUp => (.busy, { c with deadline, request := none })
        | .retry | .sleep =>
            let first := (c.request.map (·.first)).getD now
            (.again, { c with deadline, request := some ⟨count + 1, first⟩ })

abbrev ConnectionId := Nat

abbrev System := ConnectionId → Connection

inductive Event
  | install (id : ConnectionId) (timeout : Option Binary64)
  | attempt (id : ConnectionId) (free : Bool) (now : Binary64)

/-- Any connection may go on at any time. -/
def step (s : System) : Event → Option System
  | .install id timeout =>
      if (s id).request.isSome then none
      else some (Function.update s id { s id with timeout })
  | .attempt id free now => some (Function.update s id ((s id).attempt free now).2)

/-- Connections without a handler. -/
def initial : System := fun _ => ⟨none, .ofInt 0, none⟩

/-- The answer to an attempt, by the clock at the first attempt of the same request. -/
def Connection.exactAnswer (c : Connection) (free : Bool) (now : Binary64) : LockAnswer :=
  if free then .acquired
  else
    match c.timeout, c.request with
    | none, _ => .busy
    | some _, none => .again
    | some timeout, some r => if (r.first.add timeout).lt now then .busy else .again

/-- Every attempt is answered by the timeout in place and the first attempt of its request. -/
def Exact (s : System) : Event → Prop
  | .install _ _ => True
  | .attempt id free now => ((s id).attempt free now).1 = (s id).exactAnswer free now

/-- The deadline is that of the request under way. -/
def Connection.Inv (c : Connection) : Prop :=
  ∀ r, c.request = some r → 0 < r.count ∧ ∃ timeout, c.timeout = some timeout ∧
    c.deadline = r.first.add timeout

theorem attempt_again {c : Connection} (hinv : c.Inv) {timeout : Binary64}
    (h : c.timeout = some timeout) {r : Request} (hr : c.request = some r) (now : Binary64) :
    c.attempt false now =
      if (r.first.add timeout).lt now then (.busy, { c with request := none })
      else (.again, { c with request := some ⟨r.count + 1, r.first⟩ }) := by
  obtain ⟨hcount, timeout', htimeout, hdeadline⟩ := hinv r hr
  obtain rfl := Option.some.inj (h.symm.trans htimeout)
  rw [Connection.attempt, if_neg Bool.false_ne_true, h, hr]
  by_cases hlate : (r.first.add timeout).lt now = true
  · have hturn : busyHandlerTimeout timeout c.deadline r.count now = (.giveUp, c.deadline) := by
      rw [busyHandlerTimeout, if_neg hcount.ne', if_pos (by rw [hdeadline]; exact hlate)]
    rw [if_pos hlate]
    simp only [Option.map_some, Option.getD_some, hturn]
  · have hturn : busyHandlerTimeout timeout c.deadline r.count now = (.sleep, c.deadline) := by
      rw [busyHandlerTimeout, if_neg hcount.ne', if_neg (by rw [hdeadline]; exact hlate)]
    rw [if_neg hlate]
    simp only [Option.map_some, Option.getD_some, hturn]

theorem attempt_first {c : Connection} {timeout : Binary64} (h : c.timeout = some timeout)
    (hr : c.request = none) (now : Binary64) :
    c.attempt false now =
      (.again, { c with deadline := now.add timeout, request := some ⟨1, now⟩ }) := by
  rw [Connection.attempt, if_neg Bool.false_ne_true, h, hr]
  rfl

theorem attempt_exact {c : Connection} (hinv : c.Inv) (free : Bool) (now : Binary64) :
    (c.attempt free now).1 = c.exactAnswer free now ∧ (c.attempt free now).2.Inv := by
  have hover : ∀ {c : Connection}, c.request = none → c.Inv := fun h r hr => by
    rw [h] at hr
    cases hr
  cases free with
  | true => exact ⟨rfl, hover rfl⟩
  | false =>
      cases h : c.timeout with
      | none =>
          rw [Connection.attempt, Connection.exactAnswer, h]
          exact ⟨rfl, hover rfl⟩
      | some timeout =>
          cases hr : c.request with
          | none =>
              rw [attempt_first h hr, Connection.exactAnswer, h, hr]
              refine ⟨rfl, fun r hr' => ?_⟩
              obtain rfl := Option.some.inj hr'
              exact ⟨Nat.one_pos, timeout, rfl, rfl⟩
          | some r =>
              rw [attempt_again hinv h hr, Connection.exactAnswer, h, hr]
              obtain ⟨hcount, -, -, hdeadline⟩ := hinv r hr
              by_cases hlate : (r.first.add timeout).lt now = true
              · rw [if_pos hlate]
                exact ⟨(if_pos hlate).symm, hover rfl⟩
              · rw [if_neg hlate]
                refine ⟨(if_neg hlate).symm, fun r' hr' => ?_⟩
                obtain rfl := Option.some.inj hr'
                obtain ⟨-, timeout', htimeout, hdeadline⟩ := hinv r hr
                exact ⟨Nat.succ_pos _, timeout', h.symm.trans htimeout, hdeadline⟩

theorem inv_step {s t : System} {e : Event} (hstep : step s e = some t) (hinv : ∀ id, (s id).Inv) :
    ∀ id, (t id).Inv := by
  intro id'
  cases e with
  | install id timeout =>
      rw [step] at hstep
      split at hstep
      · cases hstep
      · next hidle =>
        obtain rfl := Option.some.inj hstep
        rcases eq_or_ne id' id with rfl | hne
        · rw [Function.update_self]
          intro r hr
          exact absurd (Option.isSome_iff_exists.mpr ⟨r, hr⟩) hidle
        · rw [Function.update_of_ne hne]
          exact hinv id'
  | attempt id free now =>
      obtain rfl := Option.some.inj hstep
      rcases eq_or_ne id' id with rfl | hne
      · rw [Function.update_self]
        exact (attempt_exact (hinv id') free now).2
      · rw [Function.update_of_ne hne]
        exact hinv id'

end Sqlite3Ruby.BusyTimeout
