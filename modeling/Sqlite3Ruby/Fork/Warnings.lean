import Sqlite3Ruby.Fork.Ownership

/-!
# The warning of a fork

In a child the hook warns of the writable databases that were inherited, and then closes them.
One call of `warn` is meant to do for all of them, unless warnings were suppressed before the
fork, and to come before the first is closed.

## Implementation notes

The calls of `warn` and of `db.close` are counted along a run of the child, in which the
collector runs between any two calls of the hook and the child goes on when the hook has
returned. A wrapper that dies after `warn` is counted as closed: the call is made, and raises.
-/

namespace Sqlite3Ruby.Fork.Ownership

def Hook.warnings : Hook → Nat
  | warn _ _ => 1
  | _ => 0

def Hook.closings : Hook → Nat
  | close _ _ => 1
  | _ => 0

/-- What an event of a process adds to a count of the calls of its hook. -/
def Process.adds (count : Hook → Nat) (p : Process) : Event → Nat
  | .hook => p.hook.elim 0 count
  | _ => 0

/-- The calls of `warn` in a run. -/
def Process.warnings (p : Process) (events : List Event) : Nat :=
  StepSystem.total Process.run (Process.adds Hook.warnings) p events

/-- The calls of `db.close` by the hook in a run. -/
def Process.closings (p : Process) (events : List Event) : Nat :=
  StepSystem.total Process.run (Process.adds Hook.closings) p events

/-- What a parent's fork leads to in the child, after so many calls. -/
structure WarnsOnce (p q : Process) (warnings closings : Nat) : Prop where
  at_most_once : warnings ≤ 1
  warned_iff : warnings = 1 ↔
    p.suppress = false ∧ (0 < closings ∨ ∃ d rest, q.hook = some (.close d rest))
  /-- What suppresses the warning suppresses it for what the child forks. -/
  suppressed : p.suppress = true → q.suppress = true
  /-- No database is taken away by the hook before it has warned. -/
  closed_after_warning : p.suppress = false → q.hook.isSome = true → ∀ d ∉ q.dead,
    (p.memory.databases d).db = true → (q.memory.databases d).db = false → warnings = 1
  /-- The hook does not return without a warning of a writable database that it tracks. -/
  tracked_warned : p.suppress = false → q.hook = some .cleared → ∀ d ∈ p.memory.tracked,
    d ∉ q.dead → (p.memory.databases d).db = true → (p.memory.databases d).readonly = false →
      warnings = 1

/-! ## The flag `warned` -/

/-- The warnings due after so many closings. -/
def due (suppressed : Bool) (closings : Nat) : Nat := (!suppressed && decide (0 < closings)).toNat

/-- `warned` tells whether a warning has been given or suppressed. -/
def Tallies (suppressed : Bool) (warnings closings : Nat) : Option Hook → Prop
  | some (.each _ warned) | some (.isClosed _ _ warned) | some (.isReadonly _ _ warned) =>
      warned = (suppressed || decide (0 < closings)) ∧ warnings = due suppressed closings
  | some (.warn _ _) => suppressed = false ∧ warnings = 0 ∧ closings = 0
  | some (.close _ _) => warnings = (!suppressed).toNat
  | some .cleared | none => warnings = due suppressed closings

section Tallies

variable {suppressed : Bool} {warnings closings : Nat}

theorem due_le_one : due suppressed closings ≤ 1 := Bool.toNat_le _

theorem due_eq_one_iff : due suppressed closings = 1 ↔ suppressed = false ∧ 0 < closings := by
  simp [due, Bool.toNat_eq_one]

theorem due_succ : due suppressed (closings + 1) = (!suppressed).toNat := by
  simp [due]

/-- A call of the hook keeps the flag true to what has been called. -/
theorem Tallies.hookStep (p : Process) {h : Hook}
    (htallies : Tallies suppressed warnings closings (some h)) :
    Tallies suppressed (warnings + h.warnings) (closings + h.closings) (p.hookStep h).hook := by
  cases h with
  | each databases warned =>
      cases databases with
      | nil => exact htallies.2
      | cons d rest =>
          rw [Process.hookStep]
          split
          · exact htallies
          · exact htallies
  | isClosed d rest warned =>
      rw [Process.hookStep]
      split
      · exact htallies
      · exact htallies
  | isReadonly d rest warned =>
      obtain ⟨hwarned, hwarnings⟩ := htallies
      rw [Process.hookStep]
      split
      · exact ⟨hwarned, hwarnings⟩
      · cases warned with
        | false =>
            obtain ⟨hsuppressed, hclosings⟩ := Bool.or_eq_false_iff.mp hwarned.symm
            obtain rfl := Nat.eq_zero_of_not_pos (of_decide_eq_false hclosings)
            subst hsuppressed
            exact ⟨rfl, hwarnings, rfl⟩
        | true =>
            cases suppressed with
            | false =>
                have hclosings : 0 < closings := of_decide_eq_true hwarned.symm
                exact hwarnings.trans (due_eq_one_iff.mpr ⟨rfl, hclosings⟩)
            | true => exact hwarnings
  | warn d rest =>
      obtain ⟨rfl, rfl, rfl⟩ := htallies
      rfl
  | close d rest =>
      have hnext : (p.hookStep (.close d rest)).hook = some (.each rest true) := by
        rw [Process.hookStep]
        split <;> rfl
      rw [hnext]
      refine ⟨?_, ?_⟩
      · simp [Hook.closings]
      · exact htallies.trans due_succ.symm
  | cleared => exact htallies

/-- There is at most one warning, for the first database that is to be closed. -/
theorem Tallies.warned_iff {hook : Option Hook}
    (htallies : Tallies suppressed warnings closings hook) :
    warnings ≤ 1 ∧ (warnings = 1 ↔
      suppressed = false ∧ (0 < closings ∨ ∃ d rest, hook = some (.close d rest))) := by
  have hdue (hwarnings : warnings = due suppressed closings)
      (hclose : ¬ ∃ d rest, hook = some (.close d rest)) :
      warnings ≤ 1 ∧ (warnings = 1 ↔
        suppressed = false ∧ (0 < closings ∨ ∃ d rest, hook = some (.close d rest))) := by
    rw [hwarnings, or_iff_left hclose]
    exact ⟨due_le_one, due_eq_one_iff⟩
  match hook, htallies with
  | some (.each _ _), htallies => exact hdue htallies.2 (by simp)
  | some (.isClosed _ _ _), htallies => exact hdue htallies.2 (by simp)
  | some (.isReadonly _ _ _), htallies => exact hdue htallies.2 (by simp)
  | some (.warn _ _), ⟨_, hwarnings, hclosings⟩ => simp [hwarnings, hclosings]
  | some (.close d rest), htallies =>
      subst htallies
      cases suppressed <;> simp
  | some .cleared, htallies => exact hdue htallies (by simp)
  | none, htallies => exact hdue htallies (by simp)

end Tallies

/-! ## What a run of the child keeps -/

/-- Before the first is closed, what was open in the parent is open, unless it has died. -/
def Process.Untouched (p : Process) : Prop :=
  ∀ d ∉ p.dead, (p.memory.databases d).db = (p.inherited.databases d).db

/-- What is known of the child of a fork after so many calls of `warn` and of `db.close`. -/
structure Told (parent : Process) (child : Pid) (p : Process)
    (calls : (Hook → Nat) → Nat) : Prop where
  good : Good p child
  inherited : p.inherited = parent.memory
  tallies : Tallies parent.suppress (calls Hook.warnings) (calls Hook.closings) p.hook
  untouched : calls Hook.closings = 0 → p.hook.isSome = true → p.Untouched
  suppressed : parent.suppress = true → p.suppress = true

theorem hookStep_suppress (p : Process) (h : Hook) : (p.hookStep h).suppress = p.suppress := by
  cases h with
  | each databases warned => cases databases <;> rfl
  | close d rest =>
      rw [Process.hookStep]
      split <;> rfl
  | _ => rfl

/-- A call that is not `db.close` closes nothing. -/
theorem hookStep_untouched {p : Process} {h : Hook} (huntouched : p.Untouched)
    (hclosings : h.closings = 0) : (p.hookStep h).Untouched := by
  cases h with
  | each databases warned =>
      cases databases with
      | nil => exact huntouched
      | cons d rest => exact huntouched
  | close d rest => cases hclosings
  | _ => exact huntouched

/-- The collector closes only what has died. -/
theorem happen_untouched {p : Process} {pid : Pid} {e : Event} (hgood : Good p pid)
    (huntouched : p.Untouched) (henabled : e.isEnabled p = true) (hhook : p.hook.isSome = true)
    (hne : e ≠ .hook) : (p.happen e).Untouched := by
  have hnone : p.hook.isNone = false := by simpa using hhook
  cases e with
  | drop d =>
      intro d' halive
      by_cases heq : d' = d
      · subst heq
        exact (congrArg Database.db (setDatabase_databases ..)).trans (huntouched d' halive)
      · exact (congrArg Database.db (Function.update_of_ne heq ..)).trans (huntouched d' halive)
  | find d => exact fun d' halive => huntouched d' fun hdead => halive (List.mem_cons_of_mem d hdead)
  | deallocate d =>
      have hdead := of_decide_eq_true (Bool.and_eq_true_iff.mp henabled).2
      have hchanged : ChangedAt d p (p.happen (.deallocate d)) := by
        rw [Process.happen, perform_deallocate]
        exact (hgood.toInv.perform_close d).changed.trans (setDatabase_changedAt _ d _)
      intro d' halive
      rw [hchanged.dead] at halive
      have hne : d' ≠ d := by
        rintro rfl
        exact halive hdead
      rw [hchanged.databases d' hne, hchanged.inherited]
      exact huntouched d' halive
  | hook => exact absurd rfl hne
  | _ => simp [Event.isEnabled, hnone] at henabled

/-- An event of the child keeps what is known of it. -/
theorem Told.run {parent : Process} {child : Pid} {p p' : Process} {calls : (Hook → Nat) → Nat}
    {e : Event} (h : Told parent child p calls) (hrun : p.run e = some p') :
    Told parent child p' fun count => calls count + p.adds count e := by
  obtain ⟨hgood, hsame⟩ := h.good.run hrun
  have hinherited := hsame.trans h.inherited
  obtain ⟨henabled, heq⟩ := Option.ite_none_right_eq_some.mp hrun
  obtain rfl := Option.some.inj heq
  by_cases hhook : e = .hook
  · subst hhook
    obtain ⟨hook, hhook⟩ := Option.isSome_iff_exists.mp henabled
    have hhappen : p.happen .hook = p.hookStep hook := by
      rw [Process.happen, hhook]
      rfl
    have hadds (count : Hook → Nat) : p.adds count .hook = count hook := by
      rw [Process.adds, hhook]
      rfl
    rw [hhappen] at hgood hinherited ⊢
    simp only [hadds]
    refine ⟨hgood, hinherited, ?_, fun hclosings _ => ?_, fun hsuppressed => ?_⟩
    · have htallies := h.tallies
      rw [hhook] at htallies
      exact htallies.hookStep p
    · obtain ⟨hnone, hclosings⟩ := Nat.add_eq_zero_iff.mp hclosings
      exact hookStep_untouched (h.untouched hnone (by rw [hhook]; rfl)) hclosings
    · rw [hookStep_suppress]
      exact h.suppressed hsuppressed
  · have hadds (count : Hook → Nat) : p.adds count e = 0 := by
      cases e with
      | hook => exact absurd rfl hhook
      | _ => rfl
    have hhook' : (p.happen e).hook = p.hook := by
      cases e with
      | hook => exact absurd rfl hhook
      | _ => rfl
    simp only [hadds]
    refine ⟨hgood, hinherited, ?_, fun hclosings hsome => ?_, fun hsuppressed => ?_⟩
    · rw [hhook']
      exact h.tallies
    · rw [hhook'] at hsome
      exact happen_untouched h.good (h.untouched hclosings hsome) henabled hsome hhook
    · have hp := h.suppressed hsuppressed
      cases e with
      | hook => exact absurd rfl hhook
      | suppressWarnings => rfl
      | _ => exact hp

/-- The child of a fork, before its hook has done anything. -/
theorem Told.forked {p : Process} {pid child : Pid} (h : Good p pid)
    (hchild : ∀ d, (p.memory.databases d).db = true → (p.memory.databases d).owner ≠ child) :
    Told p child (p.forked child) fun _ => 0 where
  good := h.forked hchild
  inherited := rfl
  tallies := by
    refine ⟨?_, ?_⟩
    · simp
    · simp [due]
  untouched _ _ _ _ := rfl
  suppressed := id

theorem Told.warnsOnce {parent p : Process} {child : Pid} {calls : (Hook → Nat) → Nat}
    (h : Told parent child p calls) :
    WarnsOnce parent p (calls Hook.warnings) (calls Hook.closings) := by
  obtain ⟨hle, hwarned⟩ := h.tallies.warned_iff
  have hclosed (hsuppress : parent.suppress = false) (hhook : p.hook.isSome = true) (d : DbId)
      (halive : d ∉ p.dead) (hopened : (parent.memory.databases d).db = true)
      (hclosed : (p.memory.databases d).db = false) : calls Hook.warnings = 1 := by
    refine hwarned.mpr ⟨hsuppress, Or.inl (Nat.pos_of_ne_zero fun hzero => ?_)⟩
    have huntouched := h.untouched hzero hhook d halive
    rw [h.inherited, hopened, hclosed] at huntouched
    cases huntouched
  refine ⟨hle, hwarned, h.suppressed, hclosed, ?_⟩
  intro hsuppress hcleared d htracked halive hopened hwritable
  have hrespects := h.good.respects.hook_closes hcleared
  rw [h.inherited] at hrespects
  obtain ⟨hsettled, -⟩ := hrespects.2 d htracked halive
  refine hclosed hsuppress (by rw [hcleared]; rfl) d halive hopened
    (hsettled.resolve_right fun hreadonly => ?_)
  have hinherited : (p.inherited.databases d).db = true := by
    rw [h.inherited]
    exact hopened
  have hflag := (h.good.course d).readonly (h.good.inherited d hinherited).1.life
  rw [hreadonly, h.inherited, hwritable] at hflag
  cases hflag

/-- What a process of the tree has open was opened by a process of the tree. -/
theorem TreeInv.owner {w : Tree} (h : TreeInv w) {pid : Pid} {p : Process} (hp : w pid = some p)
    {d : DbId} (hd : (p.memory.databases d).db = true) :
    (w (p.memory.databases d).owner).isSome = true := by
  obtain ⟨hgood, hknown⟩ := h pid p hp
  obtain heq | ⟨hopened, heq⟩ := (hgood.course d).owner hd
  · rw [heq, hgood.pid, hp]
    rfl
  · rw [heq]
    exact hknown d hopened

/-- Whatever the tree has done before the fork and whatever the collector finds after it: a
child warns once of the writable databases that it inherits, before the hook closes the first
of them, unless warnings were suppressed. -/
theorem fork_warns_once {root pid child : Pid} {as : List Action} {w w' : Tree} {p q : Process}
    {events : List Event} (hexec : StepSystem.exec step (Tree.start root) as = some w)
    (hp : w pid = some p) (hfork : step w (.fork pid child) = some w')
    (hevents : StepSystem.exec Process.run (p.forked child) events = some q) :
    WarnsOnce p q ((p.forked child).warnings events) ((p.forked child).closings events) := by
  have hinv : TreeInv w :=
    StepSystem.exec_invariant (fun _ _ _ h hstep => step_treeInv h hstep) (treeInv_start root) hexec
  obtain ⟨_, _, hnew, -⟩ := step_fork hfork
  have hchild (d : DbId) (hd : (p.memory.databases d).db = true) :
      (p.memory.databases d).owner ≠ child := by
    rintro rfl
    have howner := hinv.owner hp hd
    rw [hnew] at howner
    cases howner
  have htold := Told.forked (hinv pid p hp).1 hchild
  have hlast := StepSystem.exec_total (fun _ _ _ _ h hrun => h.run hrun) htold hevents
  simp only [Nat.zero_add] at hlast
  exact hlast.warnsOnce

/-- A process that has opened two writable databases. -/
def twoWritable : Process :=
  [Event.openDatabase 0 false, .track 0, .openDatabase 1 false, .track 1].foldl Process.happen
    (.start 1)

/-- Of two writable databases the child warns once, and closes both. -/
theorem twoWritable_warned_once :
    WarnsOnce twoWritable
      ((List.replicate 11 .hook).foldl Process.happen (twoWritable.forked 2)) 1 2 := by
  have hwarnings : (twoWritable.forked 2).warnings (List.replicate 11 .hook) = 1 := by
    decide +kernel
  have hclosings : (twoWritable.forked 2).closings (List.replicate 11 .hook) = 2 := by
    decide +kernel
  have h := @fork_warns_once 1 1 2
    [.event 1 (.openDatabase 0 false), .event 1 (.track 0), .event 1 (.openDatabase 1 false),
      .event 1 (.track 1)] _ _ twoWritable _ (List.replicate 11 .hook) rfl rfl rfl rfl
  rw [hwarnings, hclosings] at h
  exact h

end Sqlite3Ruby.Fork.Ownership
