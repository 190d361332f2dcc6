import Sqlite3Ruby.Lib.Binary64
import Sqlite3Ruby.Lib.Lock
import Sqlite3Ruby.Lib.StepSystem

/-!
# The interpreter lock and the connection mutex

Every SQLite call on a connection holds the mutex of the connection until it
returns, callbacks included, and the extension keeps the interpreter lock (GVL)
around the call. Ruby code inside a callback can lose the GVL, by a blocking
operation or by the end of its time slice, and then holds the mutex alone.

## Implementation notes

A thread is the stack of SQLite calls it is inside of and what it is doing in
the innermost one. A thread in Ruby code with a nonempty stack runs a callback
of the innermost call, so calls and callbacks alternate without a frame of
their own for the callback. Times are the floats of the program, in seconds.
-/

namespace Sqlite3Ruby.ThreadLocks

abbrev ThreadId := Nat

/-- The SQLite calls that the extension makes on a connection. The busy handler
that a call installs is the one of `busy_handler_timeout=` when it has a
timeout. -/
inductive SqliteCall
  | prepare
  | bind
  | step
  | column
  | reset
  | finalize
  | exec
  | busyHandler (timeout : Option Binary64)
  deriving DecidableEq

/-- The calls that can invoke Ruby code: they compile or run SQL, or end an
aggregate query. -/
def SqliteCall.callsBack : SqliteCall → Bool
  | .prepare | .step | .reset | .finalize | .exec => true
  | .bind | .column | .busyHandler _ => false

/-- What a thread is doing. -/
inductive Mode
  /-- It runs Ruby code. -/
  | ruby
  /-- It runs the C code of SQLite. -/
  | sqlite
  /-- It waits for the mutex of the connection, at the entry of a SQLite call. -/
  | blocked
  /-- It is in a blocking operation of Ruby, such as `sleep`. -/
  | sleeping
  /-- It waits for the GVL. -/
  | waiting
  deriving DecidableEq

structure Thread where
  mode : Mode
  frames : List SqliteCall

/-- The threads of one interpreter and the connection they share. The fields
`timeout` and `deadline` are those of the busy handler in place. -/
structure State where
  gvl : Option ThreadId
  mutex : Option ThreadId
  threads : ThreadId → Thread
  timeout : Option Binary64
  deadline : Binary64

/-- Any number of threads, none of which has run yet. -/
def initial : State := ⟨none, none, fun _ => ⟨.waiting, []⟩, none, .ofInt 0⟩

/-- How one call of the busy handler of `busy_handler_timeout=` goes on. -/
inductive BusyTurn
  | retry
  | giveUp
  | sleep
  deriving DecidableEq

/-- The block of `busy_handler_timeout=`: its turn and the new deadline. -/
def busyHandlerTimeout (timeout deadline : Binary64) (count : Nat) (now : Binary64) :
    BusyTurn × Binary64 :=
  if count = 0 then (.retry, now.add timeout)
  else if deadline.lt now then (.giveUp, deadline)
  else (.sleep, deadline)

inductive Act
  | acquire (t : ThreadId)
  | timeSlice (t : ThreadId)
  | sleep (t : ThreadId)
  | wake (t : ThreadId)
  | enter (t : ThreadId) (call : SqliteCall)
  | lock (t : ThreadId)
  | callback (t : ThreadId)
  | busyHandler (t : ThreadId) (count : Nat) (now : Binary64)
  | callbackReturn (t : ThreadId)
  | leave (t : ThreadId)

/-- Thread `t` is in mode `mode` from now on. -/
def State.setMode (s : State) (t : ThreadId) (mode : Mode) : State :=
  { s with threads := Function.update s.threads t ⟨mode, (s.threads t).frames⟩ }

/-- The C code of the innermost call of `t` runs, and can invoke Ruby code. -/
def State.canCallBack (s : State) (t : ThreadId) : Prop :=
  (s.threads t).mode = .sqlite ∧ ((s.threads t).frames.head?.any SqliteCall.callsBack) = true

instance (s : State) (t : ThreadId) : Decidable (s.canCallBack t) :=
  inferInstanceAs (Decidable (_ ∧ _))

/-- The effect of a call on the fields of the busy handler: the extension
stores the handler before it calls SQLite. -/
def State.install (s : State) : SqliteCall → State
  | .busyHandler timeout => { s with timeout := timeout }
  | _ => s

/-- Thread `t` is at the entry of `call`: it takes the mutex if this is free or
its own already, and else blocks while it keeps the GVL. -/
def State.enter (s : State) (t : ThreadId) (call : SqliteCall) : State :=
  let frames := call :: (s.threads t).frames
  if s.mutex = none ∨ s.mutex = some t then
    { s with mutex := some t, threads := Function.update s.threads t ⟨.sqlite, frames⟩ }
  else { s with threads := Function.update s.threads t ⟨.blocked, frames⟩ }

/-- The innermost call of `t` returns to Ruby code, and frees the mutex if it
was the only one. -/
def State.leave (s : State) (t : ThreadId) : State :=
  let frames := (s.threads t).frames.tail
  { s with
    mutex := if frames = [] then none else s.mutex
    threads := Function.update s.threads t ⟨.ruby, frames⟩ }

def step (s : State) : Act → Option State
  | .acquire t =>
      if s.gvl = none ∧ (s.threads t).mode = .waiting then
        some { s.setMode t .ruby with gvl := some t }
      else none
  | .timeSlice t =>
      if (s.threads t).mode = .ruby then some { s.setMode t .waiting with gvl := none } else none
  | .sleep t =>
      if (s.threads t).mode = .ruby then some { s.setMode t .sleeping with gvl := none } else none
  | .wake t => if (s.threads t).mode = .sleeping then some (s.setMode t .waiting) else none
  | .enter t call =>
      if (s.threads t).mode = .ruby then some ((s.install call).enter t call) else none
  | .lock t =>
      if (s.threads t).mode = .blocked ∧ s.mutex = none then
        some { s.setMode t .sqlite with mutex := some t }
      else none
  | .callback t => if s.canCallBack t then some (s.setMode t .ruby) else none
  | .busyHandler t count now =>
      match s.timeout with
      | some timeout =>
          if s.canCallBack t then
            let (turn, deadline) := busyHandlerTimeout timeout s.deadline count now
            let s := { s with deadline := deadline }
            match turn with
            | .sleep => some { s.setMode t .sleeping with gvl := none }
            | .retry | .giveUp => some s
          else none
      | none => none
  | .callbackReturn t =>
      if (s.threads t).mode = .ruby ∧ (s.threads t).frames ≠ [] then some (s.setMode t .sqlite)
      else none
  | .leave t =>
      if (s.threads t).mode = .sqlite ∧ (s.threads t).frames ≠ [] then some (s.leave t) else none

/-! ## The two owners -/

/-- The extension never releases the GVL around a SQLite call. -/
def Thread.holdsGvl (x : Thread) : Prop :=
  x.mode = .ruby ∨ x.mode = .sqlite ∨ x.mode = .blocked

/-- The mutex is held from the entry of the outermost SQLite call to its return. -/
def Thread.ownsMutex (x : Thread) : Prop := x.mode ≠ .blocked ∧ x.frames ≠ []

structure Inv (s : State) : Prop where
  gvl : Lock.OwnedBy Thread.holdsGvl s.gvl s.threads
  mutex : Lock.OwnedBy Thread.ownsMutex s.mutex s.threads
  blocked : ∀ t, (s.threads t).mode = .blocked → s.mutex ≠ none

theorem inv_initial : Inv initial := by
  refine ⟨Lock.ownedBy_none ?_, Lock.ownedBy_none ?_, ?_⟩
  · simp [initial, Thread.holdsGvl]
  · simp [initial, Thread.ownsMutex]
  · simp [initial]

/-- A thread that gets the GVL, or keeps it, while it stays on the same side of
the mutex. -/
theorem Inv.setMode {s : State} (h : Inv s) {t : ThreadId} {mode : Mode} {gvl : Option ThreadId}
    (hgvl : Lock.OwnedBy Thread.holdsGvl gvl (s.setMode t mode).threads)
    (hold : (s.threads t).mode ≠ .blocked) (hnew : mode ≠ .blocked) :
    Inv { s.setMode t mode with gvl := gvl } := by
  refine ⟨hgvl, h.mutex.update ?_, ?_⟩
  · simp [Thread.ownsMutex, hold, hnew]
  · intro u hu
    apply h.blocked u
    obtain rfl | hut := eq_or_ne u t
    · simp [State.setMode, hnew] at hu
    · simpa [State.setMode, Function.update_of_ne hut] using hu

/-- A thread that keeps the GVL, or stays without it. -/
theorem Inv.setMode_same {s : State} (h : Inv s) {t : ThreadId} {mode : Mode}
    (hgvl : (Thread.mk mode (s.threads t).frames).holdsGvl ↔ (s.threads t).holdsGvl)
    (hold : (s.threads t).mode ≠ .blocked) (hnew : mode ≠ .blocked) :
    Inv (s.setMode t mode) := by
  exact h.setMode (h.gvl.update hgvl) hold hnew

/-- A thread in Ruby or C code that loses the GVL. -/
theorem Inv.release {s : State} (h : Inv s) {t : ThreadId} {mode : Mode}
    (hold : (s.threads t).mode = .ruby ∨ (s.threads t).mode = .sqlite)
    (hnew : mode = .sleeping ∨ mode = .waiting) :
    Inv { s.setMode t mode with gvl := none } := by
  have hholds : (s.threads t).holdsGvl := by
    rcases hold with hold | hold <;> simp [Thread.holdsGvl, hold]
  have hnot : ¬ (Thread.mk mode (s.threads t).frames).holdsGvl := by
    rcases hnew with hnew | hnew <;> simp [Thread.holdsGvl, hnew]
  refine h.setMode (h.gvl.release hholds hnot) ?_ ?_
  · rcases hold with hold | hold <;> simp [hold]
  · rcases hnew with hnew | hnew <;> simp [hnew]

@[simp] theorem install_threads (s : State) (call : SqliteCall) :
    (s.install call).threads = s.threads := by cases call <;> rfl

@[simp] theorem install_mutex (s : State) (call : SqliteCall) :
    (s.install call).mutex = s.mutex := by cases call <;> rfl

theorem Inv.install {s : State} (h : Inv s) (call : SqliteCall) : Inv (s.install call) := by
  cases call <;> exact ⟨h.gvl, h.mutex, h.blocked⟩

/-- The mutex belongs to a thread in Ruby code exactly when this runs a callback. -/
theorem Inv.mutex_eq_some_iff {s : State} (h : Inv s) {t : ThreadId}
    (hmode : (s.threads t).mode ≠ .blocked) : s.mutex = some t ↔ (s.threads t).frames ≠ [] := by
  rw [h.mutex t]
  simp [Thread.ownsMutex, hmode]

theorem inv_enter {s : State} (h : Inv s) {t : ThreadId} (call : SqliteCall)
    (hruby : (s.threads t).mode = .ruby) : Inv (s.enter t call) := by
  have hholds : (s.threads t).holdsGvl := Or.inl hruby
  have hmode : (s.threads t).mode ≠ .blocked := by simp [hruby]
  rw [State.enter]
  split
  · rename_i hfree
    refine ⟨h.gvl.update (by simp [Thread.holdsGvl, hruby]), ?_, by simp⟩
    rcases hfree with hnone | hown
    · exact (hnone ▸ h.mutex).take (by simp [Thread.ownsMutex])
    · have hframes := (h.mutex_eq_some_iff hmode).mp hown
      exact (hown ▸ h.mutex).update (by simp [Thread.ownsMutex, hmode, hframes])
  · rename_i hother
    rw [not_or] at hother
    have hframes : (s.threads t).frames = [] := by
      by_contra hframes
      exact hother.2 ((h.mutex_eq_some_iff hmode).mpr hframes)
    refine ⟨h.gvl.update (by simp [Thread.holdsGvl, hruby]), h.mutex.update ?_, ?_⟩
    · simp [Thread.ownsMutex, hframes]
    · exact fun _ _ => hother.1

theorem inv_leave {s : State} (h : Inv s) {t : ThreadId} (hsqlite : (s.threads t).mode = .sqlite)
    (hframes : (s.threads t).frames ≠ []) : Inv (s.leave t) := by
  have hmode : (s.threads t).mode ≠ .blocked := by simp [hsqlite]
  have howns : (s.threads t).ownsMutex := ⟨hmode, hframes⟩
  have hholds : (s.threads t).holdsGvl := Or.inr (Or.inl hsqlite)
  refine ⟨h.gvl.update (by simp [Thread.holdsGvl, hsqlite]), ?_, ?_⟩
  · by_cases htail : (s.threads t).frames.tail = []
    · simp only [State.leave, htail, if_true]
      exact h.mutex.release howns (by simp [Thread.ownsMutex])
    · simp only [State.leave, htail, if_false]
      exact h.mutex.update (by simp [Thread.ownsMutex, htail, hmode, hframes])
  · intro u hu
    -- a blocked thread holds the GVL, so it is the thread that leaves
    have hut : u ≠ t := by
      rintro rfl
      simp [State.leave] at hu
    have hublocked : (s.threads u).mode = .blocked := by
      simpa [State.leave, Function.update_of_ne hut] using hu
    exact absurd (h.gvl.unique (Or.inr (Or.inr hublocked)) hholds) hut

/-- A turn of the busy handler of `busy_handler_timeout=` sets the deadline, or
sleeps without the GVL. -/
theorem step_busyHandler {s s' : State} {t : ThreadId} {count : Nat} {now : Binary64}
    (hstep : step s (.busyHandler t count now) = some s') :
    s.canCallBack t ∧ ∃ deadline, s' = { s with deadline := deadline } ∨
      s' = { State.setMode { s with deadline := deadline } t .sleeping with gvl := none } := by
  cases htimeout : s.timeout with
  | none => simp [step, htimeout] at hstep
  | some timeout =>
      simp only [step, htimeout, Option.ite_none_right_eq_some] at hstep
      obtain ⟨hcan, hstep⟩ := hstep
      refine ⟨hcan, (busyHandlerTimeout timeout s.deadline count now).2, ?_⟩
      split at hstep
      · exact Or.inr (Option.some.inj hstep).symm
      · exact Or.inl (Option.some.inj hstep).symm
      · exact Or.inl (Option.some.inj hstep).symm

/-- Every step of every thread keeps the invariant. -/
theorem inv_step {s s' : State} {a : Act} (h : Inv s) (hstep : step s a = some s') : Inv s' := by
  cases a with
  | acquire t =>
      simp only [step, Option.ite_none_right_eq_some, Option.some.injEq] at hstep
      obtain ⟨⟨hnone, hwaiting⟩, rfl⟩ := hstep
      refine h.setMode ((hnone ▸ h.gvl).take (by simp [Thread.holdsGvl])) ?_ ?_ <;> simp [hwaiting]
  | timeSlice t =>
      simp only [step, Option.ite_none_right_eq_some, Option.some.injEq] at hstep
      obtain ⟨hruby, rfl⟩ := hstep
      exact h.release (Or.inl hruby) (Or.inr rfl)
  | sleep t =>
      simp only [step, Option.ite_none_right_eq_some, Option.some.injEq] at hstep
      obtain ⟨hruby, rfl⟩ := hstep
      exact h.release (Or.inl hruby) (Or.inl rfl)
  | wake t =>
      simp only [step, Option.ite_none_right_eq_some, Option.some.injEq] at hstep
      obtain ⟨hsleeping, rfl⟩ := hstep
      refine h.setMode_same ?_ ?_ ?_ <;> simp [Thread.holdsGvl, hsleeping]
  | enter t call =>
      simp only [step, Option.ite_none_right_eq_some, Option.some.injEq] at hstep
      obtain ⟨hruby, rfl⟩ := hstep
      exact inv_enter (h.install call) call (by simpa using hruby)
  | lock t =>
      simp only [step, Option.ite_none_right_eq_some] at hstep
      obtain ⟨⟨hblocked, hnone⟩, -⟩ := hstep
      exact absurd hnone (h.blocked t hblocked)
  | callback t =>
      simp only [step, Option.ite_none_right_eq_some, Option.some.injEq] at hstep
      obtain ⟨⟨hsqlite, -⟩, rfl⟩ := hstep
      refine h.setMode_same ?_ ?_ ?_ <;> simp [Thread.holdsGvl, hsqlite]
  | busyHandler t count now =>
      obtain ⟨⟨hsqlite, -⟩, deadline, rfl | rfl⟩ := step_busyHandler hstep
      · exact ⟨h.gvl, h.mutex, h.blocked⟩
      · have hdeadline : Inv { s with deadline := deadline } := ⟨h.gvl, h.mutex, h.blocked⟩
        exact hdeadline.release (Or.inr hsqlite) (Or.inl rfl)
  | callbackReturn t =>
      simp only [step, Option.ite_none_right_eq_some, Option.some.injEq] at hstep
      obtain ⟨⟨hruby, -⟩, rfl⟩ := hstep
      refine h.setMode_same ?_ ?_ ?_ <;> simp [Thread.holdsGvl, hruby]
  | leave t =>
      simp only [step, Option.ite_none_right_eq_some, Option.some.injEq] at hstep
      obtain ⟨⟨hsqlite, hframes⟩, rfl⟩ := hstep
      exact inv_leave h hsqlite hframes

/-! ## Deadlock -/

/-- A thread that holds the GVL waits for the mutex, and the thread that owns
the mutex waits for the GVL. -/
def Deadlocked (s : State) : Prop :=
  ∃ t u, s.gvl = some t ∧ (s.threads t).mode = .blocked ∧
    s.mutex = some u ∧ u ≠ t ∧ (s.threads u).mode = .waiting

/-- No two threads are deadlocked, nor will they be as soon as one wakes up. -/
structure DeadlockFree (s : State) : Prop where
  now : ¬ Deadlocked s
  afterWake : ∀ u s', step s (.wake u) = some s' → ¬ Deadlocked s'

/-- A thread enters a SQLite call only while no other thread is inside of one. -/
def EntersFreely (s : State) (a : Act) : Prop :=
  match a with
  | .enter t _ => s.mutex = none ∨ s.mutex = some t
  | _ => True

/-- A thread that blocks on the mutex with the GVL is never freed: the owner of
the mutex waits for the GVL, or will as soon as it wakes up. -/
theorem Inv.deadlockFree_iff {s : State} (h : Inv s) :
    DeadlockFree s ↔ ∀ t, (s.threads t).mode ≠ .blocked := by
  constructor
  · intro hfree t hblocked
    have hgvl : s.gvl = some t := (h.gvl t).mpr (Or.inr (Or.inr hblocked))
    obtain ⟨u, hu⟩ := Option.ne_none_iff_exists'.mp (h.blocked t hblocked)
    have howns := (h.mutex u).mp hu
    have hut : u ≠ t := by
      rintro rfl
      exact howns.1 hblocked
    have hnot : ¬ (s.threads u).holdsGvl := by
      intro hholds
      exact hut (h.gvl.unique hholds (Or.inr (Or.inr hblocked)))
    cases hmode : (s.threads u).mode with
    | ruby => exact hnot (Or.inl hmode)
    | sqlite => exact hnot (Or.inr (Or.inl hmode))
    | blocked => exact howns.1 hmode
    | waiting => exact hfree.now ⟨t, u, hgvl, hblocked, hu, hut, hmode⟩
    | sleeping =>
        apply hfree.afterWake u (s.setMode u .waiting) (by simp [step, hmode])
        refine ⟨t, u, hgvl, ?_, hu, hut, by simp [State.setMode]⟩
        simpa [State.setMode, Function.update_of_ne hut.symm] using hblocked
  · intro hnone
    constructor
    · rintro ⟨t, -, -, hblocked, -⟩
      exact hnone t hblocked
    · rintro u s' hwake ⟨t, -, -, hblocked, -⟩
      simp only [step, Option.ite_none_right_eq_some, Option.some.injEq] at hwake
      obtain ⟨-, rfl⟩ := hwake
      obtain rfl | htu := eq_or_ne t u
      · simp [State.setMode] at hblocked
      · exact hnone t (by simpa [State.setMode, Function.update_of_ne htu] using hblocked)

/-- A step of thread `t` leaves no thread blocked exactly when it leaves `t`
unblocked. -/
theorem forall_update_mode_iff {threads : ThreadId → Thread}
    (hnone : ∀ t, (threads t).mode ≠ .blocked) (t : ThreadId) (x : Thread) :
    (∀ u, (Function.update threads t x u).mode ≠ .blocked) ↔ x.mode ≠ .blocked := by
  constructor
  · intro h
    simpa using h t
  · intro hx u
    obtain rfl | hut := eq_or_ne u t
    · simpa using hx
    · simpa [Function.update_of_ne hut] using hnone u

theorem setMode_unblocked {s : State} (hnone : ∀ t, (s.threads t).mode ≠ .blocked) (t : ThreadId)
    {mode : Mode} (hmode : mode ≠ .blocked) : ∀ u, ((s.setMode t mode).threads u).mode ≠ .blocked :=
  (forall_update_mode_iff hnone t _).mpr hmode

/-- While no thread is blocked, a step blocks one exactly when it enters a call
against the mutex. -/
theorem unblocked_step_iff {s s' : State} {a : Act}
    (hnone : ∀ t, (s.threads t).mode ≠ .blocked) (hstep : step s a = some s') :
    (∀ t, (s'.threads t).mode ≠ .blocked) ↔ EntersFreely s a := by
  cases a with
  | enter t call =>
      simp only [step, Option.ite_none_right_eq_some, Option.some.injEq] at hstep
      obtain ⟨-, rfl⟩ := hstep
      simp only [EntersFreely, State.enter, install_mutex, install_threads]
      split
      · rename_i hfree
        exact iff_of_true ((forall_update_mode_iff hnone t _).mpr (by simp)) hfree
      · rename_i hother
        refine iff_of_false ?_ hother
        intro h
        exact (forall_update_mode_iff hnone t _).mp h rfl
  | busyHandler t count now =>
      obtain ⟨-, deadline, rfl | rfl⟩ := step_busyHandler hstep
      · exact iff_of_true hnone trivial
      · exact iff_of_true (setMode_unblocked (s := { s with deadline := deadline }) hnone t
          (by decide)) trivial
  | leave t =>
      simp only [step, Option.ite_none_right_eq_some, Option.some.injEq] at hstep
      obtain ⟨-, rfl⟩ := hstep
      exact iff_of_true ((forall_update_mode_iff hnone t _).mpr (by simp)) trivial
  | acquire t | timeSlice t | sleep t | wake t | lock t | callback t | callbackReturn t =>
      simp only [step, Option.ite_none_right_eq_some, Option.some.injEq] at hstep
      obtain ⟨-, rfl⟩ := hstep
      exact iff_of_true (setMode_unblocked hnone t (by decide)) trivial

/-- In a run of any threads on one `Database`, no state reached is deadlocked or
about to be exactly when no thread enters a SQLite call while another thread is
inside of one. -/
theorem threads_deadlockFree_iff (as : List Act) :
    StepSystem.AlwaysState step DeadlockFree initial as ↔
      StepSystem.AlwaysStep step EntersFreely initial as := by
  have hinitial : ∀ t, (initial.threads t).mode ≠ .blocked := by simp [initial]
  refine StepSystem.alwaysState_iff_alwaysStep (fun _ _ _ => inv_step) ?_ inv_initial
    (inv_initial.deadlockFree_iff.mpr hinitial)
  intro s a s' h hfree hstep
  rw [(inv_step h hstep).deadlockFree_iff]
  exact unblocked_step_iff (h.deadlockFree_iff.mp hfree) hstep

/-- Thread 0 sleeps in its busy handler, inside of `sqlite3_step`, while thread 1
gets the GVL and prepares a statement. Then the sleep of thread 0 ends. -/
def sleepInBusyHandler : List Act :=
  [.acquire 0, .enter 0 (.busyHandler (some (.ofInt 1))), .leave 0, .enter 0 .step,
    .busyHandler 0 0 (.ofInt 5), .busyHandler 0 1 (.ofInt 5), .acquire 1, .enter 1 .prepare,
    .wake 0]

/-- Both threads are using the `Database` as the README allows, and both are stuck. -/
theorem sleepInBusyHandler_deadlocks :
    ¬ StepSystem.AlwaysState step (fun s => ¬ Deadlocked s) initial sleepInBusyHandler := by
  intro h
  have hrun : (StepSystem.exec step initial sleepInBusyHandler).map (fun s =>
      (s.gvl, (s.threads 1).mode, s.mutex, (s.threads 0).mode)) =
      some (some 1, .blocked, some 0, .waiting) := by decide +kernel
  obtain ⟨s, hexec, hs⟩ := Option.map_eq_some_iff.mp hrun
  obtain ⟨hgvl, hblocked, hmutex, hwaiting⟩ : s.gvl = some 1 ∧ (s.threads 1).mode = .blocked ∧
      s.mutex = some 0 ∧ (s.threads 0).mode = .waiting := by simpa using hs
  exact h.last hexec ⟨1, 0, hgvl, hblocked, hmutex, by decide, hwaiting⟩

end Sqlite3Ruby.ThreadLocks
