import Sqlite3Ruby.Lib.StepSystem
import Sqlite3Ruby.Transaction

/-!
# One `Database` shared among threads

Any number of threads run `transaction` blocks and plain `execute` calls on one
connection, in any interleaving of their statements. The state of the
transaction belongs to the connection: a plain write that runs while some block
is open joins the transaction of that block.

## Implementation notes

The content of the database is the list of the writes in effect, each under a
number of its own, so that a write is undone when it leaves this list. The
field `joined` is not part of the program: it records the plain writes made
since the BEGIN of the transaction that is open.
-/

namespace Sqlite3Ruby.SharedDatabase

open Transaction

abbrev ThreadId := Nat
abbrev WriteId := Nat

/-- The shared connection and the threads that use it. -/
structure State where
  db : Connection (List WriteId)
  inBlock : ThreadId → Bool
  returned : List WriteId
  joined : List WriteId
  nextWrite : WriteId

/-- A new connection that no thread uses yet. -/
def initial : State := ⟨⟨[], none⟩, fun _ => false, [], [], 0⟩

/-- How SQLite answers a write statement. -/
inductive WriteAnswer
  | done
  | failed
  | rolledBack
  deriving DecidableEq

/-- The write numbered `w`: it appends itself to the content if it succeeds. -/
def numbered (w : WriteId) (answer : WriteAnswer) : Write (List WriteId) := fun log =>
  match answer with
  | .done => .done (log ++ [w])
  | .failed => .failed log
  | .rolledBack => .rolledBack

/-- What a thread does next: enter a `transaction` block, `execute` one write,
or leave its block. -/
inductive Act
  | begin_ (t : ThreadId) (sqlite : Sqlite) (mode : String)
  | write (t : ThreadId) (answer : WriteAnswer)
  | finish (t : ThreadId) (sqlite : Sqlite) (exit : Outcome Unit)

/-- The plain writes of the open transaction, once `db` is the connection. -/
def joinedIn (db : Connection (List WriteId)) (joined : List WriteId) : List WriteId :=
  if db.transactionActive then joined else []

/-- One statement of one thread. A block begins only outside a block of the
same thread, and its BEGIN may raise. -/
def step (s : State) : Act → Option State
  | .begin_ t sqlite mode =>
      if s.inBlock t then none
      else
        match executeBegin sqlite mode s.db with
        | (.ok _, db) =>
            some { s with db := db, inBlock := Function.update s.inBlock t true, joined := [] }
        | (_, db) => some { s with db := db }
  | .write t answer =>
      let w := s.nextWrite
      let db := (numbered w answer).run s.db
      let plain := answer = .done ∧ s.inBlock t = false
      some { s with
        db := db
        returned := if plain then s.returned ++ [w] else s.returned
        joined := joinedIn db (if plain then s.joined ++ [w] else s.joined)
        nextWrite := w + 1 }
  | .finish t sqlite exit =>
      if s.inBlock t then
        let db := (endTransaction sqlite (abortOf exit) s.db).2
        some { s with
          db := db
          inBlock := Function.update s.inBlock t false
          joined := joinedIn db s.joined }
      else none

/-- What holds between statements: numbers are used once, and the joined writes
are the returned plain writes that only the open transaction holds. -/
structure Inv (s : State) : Prop where
  content_lt : ∀ w ∈ s.db.content, w < s.nextWrite
  view_lt : ∀ w ∈ s.db.view, w < s.nextWrite
  returned_lt : ∀ w ∈ s.returned, w < s.nextWrite
  mem_joined : ∀ w, w ∈ s.joined ↔ w ∈ s.returned ∧ w ∈ s.db.view ∧ w ∉ s.db.content

theorem inv_initial : Inv initial := by
  constructor <;> simp [initial, Connection.view]

/-- Outside a transaction no write is joined. -/
theorem Inv.joined_eq_nil {s : State} (h : Inv s) (htxn : s.db.txn = none) : s.joined = [] := by
  apply List.eq_nil_iff_forall_not_mem.mpr
  intro w hw
  obtain ⟨-, hview, hcontent⟩ := (h.mem_joined w).mp hw
  rw [view_of_inactive htxn] at hview
  exact hcontent hview

/-- A connection outside a transaction keeps the invariant with any set of its
old numbers as its content. -/
theorem inv_of_inactive {s : State} (h : Inv s) {db : Connection (List WriteId)}
    {inBlock : ThreadId → Bool} (htxn : db.txn = none)
    (hlt : ∀ w ∈ db.content, w < s.nextWrite) :
    Inv { s with db := db, inBlock := inBlock, joined := [] } := by
  refine ⟨hlt, ?_, h.returned_lt, ?_⟩
  · simpa only [view_of_inactive htxn] using hlt
  · simp [view_of_inactive htxn]

/-- A connection that keeps its content and reads the same keeps the invariant. -/
theorem inv_of_same {s : State} (h : Inv s) {inBlock : ThreadId → Bool} :
    Inv { s with inBlock := inBlock, joined := joinedIn s.db s.joined } := by
  have hjoined : joinedIn s.db s.joined = s.joined := by
    rw [joinedIn]
    split
    · rfl
    · rename_i htxn
      have htxn' : s.db.txn = none := by simpa [Connection.transactionActive] using htxn
      exact (h.joined_eq_nil htxn').symm
  rw [hjoined]
  exact ⟨h.content_lt, h.view_lt, h.returned_lt, h.mem_joined⟩

theorem joinedIn_of_inactive {db : Connection (List WriteId)} (joined : List WriteId)
    (htxn : db.txn = none) : joinedIn db joined = [] := by
  simp [joinedIn, Connection.transactionActive, htxn]

theorem inv_begin {s t : State} {thread : ThreadId} {sqlite : Sqlite} {mode : String} (h : Inv s)
    (hstep : step s (.begin_ thread sqlite mode) = some t) : Inv t := by
  simp only [step] at hstep
  split at hstep
  · cases hstep
  · cases htxn : s.db.txn with
    | some c =>
        obtain ⟨e, he, -⟩ := fail_run sqlite sqliteError s.db
        have hrun : executeBegin sqlite mode s.db = (.raise e, s.db) := by
          simp [executeBegin, Connection.transactionActive, htxn, he]
        rw [hrun] at hstep
        obtain rfl := Option.some.inj hstep
        exact h
    | none =>
        cases hbegin : sqlite.begin_ ("begin " ++ mode ++ " transaction") with
        | none =>
            rw [executeBegin_run_ok sqlite mode htxn hbegin] at hstep
            obtain rfl := Option.some.inj hstep
            refine ⟨h.content_lt, h.content_lt, h.returned_lt, ?_⟩
            simp [Connection.view]
        | some status =>
            obtain ⟨e, he⟩ := executeBegin_run_fail sqlite s.db mode htxn hbegin
            rw [he] at hstep
            obtain rfl := Option.some.inj hstep
            exact h

theorem inv_finish {s t : State} {thread : ThreadId} {sqlite : Sqlite} {exit : Outcome Unit}
    (h : Inv s) (hstep : step s (.finish thread sqlite exit) = some t) : Inv t := by
  simp only [step] at hstep
  split at hstep
  · obtain rfl := Option.some.inj hstep
    rcases endTransaction_cases sqlite (abortOf exit) s.db with hdb | hdb | ⟨c, hc, hdb⟩
    · rw [hdb]
      exact inv_of_same h
    · rw [hdb, joinedIn_of_inactive _ rfl]
      exact inv_of_inactive h rfl h.content_lt
    · rw [hdb, joinedIn_of_inactive _ rfl]
      have hview : s.db.view = c := by simp [Connection.view, hc]
      exact inv_of_inactive h rfl (hview ▸ h.view_lt)
  · cases hstep

theorem lt_succ_of_mem_append {l : List WriteId} {n : WriteId} (h : ∀ w ∈ l, w < n) :
    ∀ w ∈ l ++ [n], w < n + 1 := by
  intro w hw
  rcases List.mem_append.mp hw with hw | hw
  · exact Nat.lt_succ_of_lt (h w hw)
  · rw [List.mem_singleton.mp hw]
    exact Nat.lt_succ_self n

/-- A write that succeeds: its number is new, so it is joined exactly when it is
a plain write inside a transaction. -/
theorem inv_write_done {s : State} (h : Inv s) (plain : Prop) [Decidable plain] :
    Inv { s with
      db := s.db.put (s.db.view ++ [s.nextWrite])
      returned := if plain then s.returned ++ [s.nextWrite] else s.returned
      joined := joinedIn (s.db.put (s.db.view ++ [s.nextWrite]))
        (if plain then s.joined ++ [s.nextWrite] else s.joined)
      nextWrite := s.nextWrite + 1 } := by
  have hreturned : ∀ w ∈ (if plain then s.returned ++ [s.nextWrite] else s.returned),
      w < s.nextWrite + 1 := by
    split
    · exact lt_succ_of_mem_append h.returned_lt
    · exact fun w hw => Nat.lt_succ_of_lt (h.returned_lt w hw)
  have hview := lt_succ_of_mem_append h.view_lt
  cases htxn : s.db.txn with
  | none =>
      rw [Connection.put_of_inactive _ htxn, joinedIn_of_inactive _ rfl]
      refine ⟨hview, hview, hreturned, ?_⟩
      intro w
      constructor
      · intro hw
        exact absurd hw List.not_mem_nil
      · rintro ⟨-, hw, hcontent⟩
        exact absurd hw hcontent
  | some log =>
      have hnew : s.nextWrite ∉ s.db.content :=
        fun hw => Nat.lt_irrefl _ (h.content_lt _ hw)
      have hnotReturned : s.nextWrite ∉ s.returned :=
        fun hw => Nat.lt_irrefl _ (h.returned_lt _ hw)
      have hmem := h.mem_joined
      rw [Connection.put_of_active _ htxn]
      refine ⟨fun w hw => Nat.lt_succ_of_lt (h.content_lt w hw), hview, hreturned, ?_⟩
      intro w
      change w ∈ (if plain then s.joined ++ [s.nextWrite] else s.joined) ↔
        w ∈ (if plain then s.returned ++ [s.nextWrite] else s.returned) ∧
          w ∈ s.db.view ++ [s.nextWrite] ∧ w ∉ s.db.content
      obtain rfl | hw := eq_or_ne w s.nextWrite
      · have hnotJoined : s.nextWrite ∉ s.joined := fun hj => hnotReturned ((hmem _).mp hj).1
        split <;> simp [hnew, hnotReturned, hnotJoined]
      · split <;> simp [hw, hmem w]

/-- A write that fails leaves no number behind, and may end the transaction. -/
theorem inv_write_fail {s : State} (h : Inv s) (plain : Prop) [Decidable plain]
    (hplain : ¬ plain) {answer : WriteAnswer} (hanswer : answer ≠ .done) :
    Inv { s with
      db := (numbered s.nextWrite answer).run s.db
      returned := if plain then s.returned ++ [s.nextWrite] else s.returned
      joined := joinedIn ((numbered s.nextWrite answer).run s.db)
        (if plain then s.joined ++ [s.nextWrite] else s.joined)
      nextWrite := s.nextWrite + 1 } := by
  rw [if_neg hplain, if_neg hplain]
  have hnext {u : State} (hu : Inv u) : Inv { u with nextWrite := u.nextWrite + 1 } :=
    ⟨fun w hw => Nat.lt_succ_of_lt (hu.content_lt w hw),
      fun w hw => Nat.lt_succ_of_lt (hu.view_lt w hw),
      fun w hw => Nat.lt_succ_of_lt (hu.returned_lt w hw), hu.mem_joined⟩
  cases answer with
  | done => exact absurd rfl hanswer
  | failed =>
      have hrun : (numbered s.nextWrite .failed).run s.db = s.db := by
        simp [Write.run, numbered]
      rw [hrun]
      exact hnext (inv_of_same h)
  | rolledBack =>
      have hrun : (numbered s.nextWrite .rolledBack).run s.db = ⟨s.db.content, none⟩ := by
        simp [Write.run, numbered]
      rw [hrun, joinedIn_of_inactive _ rfl]
      have hrolled : Inv { s with db := ⟨s.db.content, none⟩, joined := [] } :=
        inv_of_inactive h rfl h.content_lt
      exact hnext hrolled

/-- Every statement of every thread keeps the invariant. -/
theorem inv_step {s t : State} {a : Act} (h : Inv s) (hstep : step s a = some t) : Inv t := by
  cases a with
  | begin_ thread sqlite mode => exact inv_begin h hstep
  | finish thread sqlite exit => exact inv_finish h hstep
  | write thread answer =>
      obtain rfl := Option.some.inj hstep
      obtain rfl | hanswer := eq_or_ne answer .done
      · exact inv_write_done h _
      · exact inv_write_fail h _ (fun hplain => hanswer hplain.1) hanswer

/-! ## No returned write is undone -/

/-- The step is not a ROLLBACK, after a block that raised, that undoes a plain
write which has returned. -/
def KeepsReturned (s : State) (a : Act) : Prop :=
  match a with
  | .finish _ _ exit =>
      abortOf exit = true → ∀ t, step s a = some t →
        ∀ w ∈ s.returned, w ∈ s.db.view → w ∈ t.db.view
  | _ => True

/-- When a block is about to be rolled back, no plain write has returned since
the BEGIN of the open transaction, or SQLite refuses the ROLLBACK. -/
def NoneJoined (s : State) (a : Act) : Prop :=
  match a with
  | .finish _ sqlite exit =>
      abortOf exit = true → s.joined = [] ∨ sqlite.rollback.isStillOpen = true
  | _ => True

/-- A ROLLBACK undoes exactly the returned writes that joined the transaction. -/
theorem keepsReturned_iff {s t : State} {a : Act} (h : Inv s) (hstep : step s a = some t) :
    KeepsReturned s a ↔ NoneJoined s a := by
  cases a with
  | begin_ thread sqlite mode => exact Iff.rfl
  | write thread answer => exact Iff.rfl
  | finish thread sqlite exit =>
      simp only [KeepsReturned, NoneJoined]
      apply forall_congr'
      intro habort
      simp only [hstep, Option.some.injEq, forall_eq']
      simp only [step] at hstep
      split at hstep
      · obtain rfl := Option.some.inj hstep
        simp only [habort]
        cases htxn : s.db.txn with
        | none =>
            have hsame : (endTransaction sqlite true s.db).2 = s.db := by
              obtain ⟨e, he⟩ := rollback_run_inactive sqlite htxn
              rw [endTransaction_true_raise sqlite he]
            simp [hsame, h.joined_eq_nil htxn]
        | some log =>
            rw [endTransaction_true_snd sqlite htxn]
            cases hopen : sqlite.rollback.isStillOpen with
            | true => simp
            | false =>
                simp only [Bool.false_eq_true, if_false, or_false, List.eq_nil_iff_forall_not_mem]
                constructor
                · intro hkeep w hw
                  obtain ⟨hret, hview, hcontent⟩ := (h.mem_joined w).mp hw
                  exact hcontent (hkeep w hret hview)
                · intro hnone w hret hview
                  by_contra hcontent
                  exact hnone w ((h.mem_joined w).mpr ⟨hret, hview, hcontent⟩)
      · cases hstep

/-- In a run of any threads on one `Database`, no ROLLBACK of a block that
raised undoes a returned plain write exactly when no such ROLLBACK comes after
a plain write that joined its transaction. -/
theorem returned_writes_kept_iff (as : List Act) :
    StepSystem.AlwaysStep step KeepsReturned initial as ↔
      StepSystem.AlwaysStep step NoneJoined initial as :=
  StepSystem.alwaysStep_congr (fun _ _ _ => inv_step) (fun _ _ _ => keepsReturned_iff) inv_initial

/-- Thread 0 opens a block, thread 1 runs a plain write, and the block raises. -/
def lostUpdate : List Act :=
  [.begin_ 0 willing "deferred", .write 1 .done,
    .finish 0 willing (.raise ⟨.ArgumentError, ""⟩)]

/-- The write of thread 1 has returned and is undone by the ROLLBACK of thread 0. -/
theorem lostUpdate_undoes : ¬ StepSystem.AlwaysStep step KeepsReturned initial lostUpdate := by
  intro h
  obtain ⟨-, h⟩ := h _ rfl
  obtain ⟨-, h⟩ := h _ rfl
  obtain ⟨h, -⟩ := h _ rfl
  exact absurd (h rfl _ rfl 0 (by decide) (by decide)) (by decide)

end Sqlite3Ruby.SharedDatabase
