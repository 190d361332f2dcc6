import Mathlib.Data.List.Basic
import Mathlib.Logic.Function.Basic
import Sqlite3Ruby.Lib.StepSystem

/-!
# Handles in methods that let foreign code run

A method looks whether the field for a handle is set, and later passes the handle to
the library that made it. In between it may let foreign code run, which can call any
method again, also one that destroys the handle.

## Implementation notes

`lost` and `destroying` are not part of the program. A frame has lost a handle that was
destroyed while its method was under way and has not been made again. A handle whose
destructor is running is still in its field, and is as before where an exception leaves the
destructor.
-/

namespace Handles

variable {H S M : Type}

/-- What is passed: the handle in a field, or one that was read from its field before. -/
inductive Operand (H : Type)
  | field (h : H)
  | captured (h : H)

def Operand.handle : Operand H → H
  | field h => h
  | captured h => h

@[simp] theorem Operand.handle_field (h : H) : (field h).handle = h := rfl

@[simp] theorem Operand.handle_captured (h : H) : (captured h).handle = h := rfl

/-- What a method has still to do. -/
inductive Code (H S : Type)
  | done
  | raised
  /-- What the arguments or the answer of the library decide. -/
  | either (left right : Code H S)
  /-- Foreign code runs, and may leave the method by an exception. -/
  | foreign (next : Code H S)
  /-- Foreign code runs inside the destructor of the handle. An exception leaves the destructor
  too, and the handle is not destroyed. -/
  | inDestructor (h : H) (next : Code H S)
  | requireSet (h : H) (next : Code H S)
  | requireClear (h : H) (next : Code H S)
  | ifSet (h : H) (left right : Code H S)
  | pass (operands : List (Operand H)) (next : Code H S)
  /-- A loop that passes the same operands in each round. -/
  | passAll (operands : List (Operand H)) (next : Code H S)
  /-- A constructor that writes the field whether it fails or not. -/
  | create (h : H) (made failed : Code H S)
  | assign (h : H) (next : Code H S)
  | destroy (h : H) (next : Code H S)
  | clear (h : H) (next : Code H S)
  /-- Another pointer is followed, which is not null if `p` holds. -/
  | follow (p : S → Bool) (next : Code H S)
  | test (p : S → Bool) (left right : Code H S)
  | update (f : S → S) (next : Code H S)

namespace Code

/-- The code passes only handles of the list, and ones that it has looked at or made. -/
@[simp] def Guarded : List H → Code H S → Prop
  | _, done => True
  | _, raised => True
  | checked, either left right => left.Guarded checked ∧ right.Guarded checked
  | checked, foreign next => next.Guarded checked
  | checked, inDestructor _ next => next.Guarded checked
  | checked, requireSet h next => next.Guarded (h :: checked)
  | checked, requireClear _ next => next.Guarded checked
  | checked, ifSet h left right => left.Guarded (h :: checked) ∧ right.Guarded checked
  | checked, pass operands next =>
      (∀ o ∈ operands, o.handle ∈ checked) ∧ next.Guarded checked
  | checked, passAll operands next =>
      (∀ o ∈ operands, o.handle ∈ checked) ∧ next.Guarded checked
  | checked, create h made failed =>
      made.Guarded (h :: checked) ∧ failed.Guarded (h :: checked)
  | checked, assign h next => next.Guarded (h :: checked)
  | checked, destroy h next => h ∈ checked ∧ next.Guarded checked
  | checked, clear _ next => next.Guarded checked
  | checked, follow _ next => next.Guarded checked
  | checked, test _ left right => left.Guarded checked ∧ right.Guarded checked
  | checked, update _ next => next.Guarded checked

/-- What the next step passes to the library. -/
def passed (answer : Bool) : Code H S → List (Operand H)
  | pass operands _ => operands
  | passAll operands _ => if answer then operands else []
  | destroy h _ => [.field h]
  | _ => []

/-- The pointer that the next step follows is not null. -/
def follows (s : S) : Code H S → Bool
  | follow p _ => p s
  | _ => true

/-- Foreign code is running. -/
def isForeign : Code H S → Bool
  | foreign _ => true
  | inDestructor _ _ => true
  | _ => false

theorem Guarded.passed {checked : List H} {code : Code H S} (h : code.Guarded checked)
    (answer : Bool) : ∀ o ∈ code.passed answer, o.handle ∈ checked := by
  cases code with
  | pass operands next => exact h.1
  | passAll operands next =>
      intro o ho
      cases answer with
      | true => exact h.1 o ho
      | false => simp [Code.passed] at ho
  | destroy h' next =>
      intro o ho
      obtain rfl := List.mem_singleton.mp ho
      exact h.1
  | _ => simp [Code.passed]

end Code

/-- A method under way. `assumes` are the handles that it passes without a look at them. -/
structure Frame (H S : Type) where
  assumes : List H
  code : Code H S
  lost : H → Bool

structure World (H S : Type) where
  field : H → Bool
  live : H → Bool
  destroying : H → Bool
  state : S
  frames : List (Frame H S)

def Operand.isLive (w : World H S) : Operand H → Prop
  | field h => w.field h = true ∧ w.live h = true
  | captured h => w.live h = true

section Steps

variable [DecidableEq H]

def Frame.setLost (h : H) (lost : Bool) (frame : Frame H S) : Frame H S :=
  { frame with lost := Function.update frame.lost h lost }

namespace World

def make (h : H) (w : World H S) : World H S where
  field := Function.update w.field h true
  live := Function.update w.live h true
  destroying := Function.update w.destroying h false
  state := w.state
  frames := w.frames.map (·.setLost h false)

/-- The handle is of no more use. -/
def lose (h : H) (field destroying : Bool) (w : World H S) : World H S where
  field := Function.update w.field h field
  live := Function.update w.live h false
  destroying := Function.update w.destroying h destroying
  state := w.state
  frames := w.frames.map (·.setLost h true)

/-- The destructor of the handle is left, unless another one has come to its end. -/
def spare (h : H) (w : World H S) : World H S :=
  if w.field h && w.destroying h then w.make h else w

def goOn (code : Code H S) (w : World H S) : World H S :=
  { w with frames := w.frames.modifyHead fun frame => { frame with code } }

def leave (w : World H S) : World H S := { w with frames := w.frames.tail }

/-- The next step of the method on top. -/
def proceed (answer : Bool) (w : World H S) : Code H S → World H S
  | .done => w.leave
  | .raised => w.leave
  | .either left right => w.goOn (if answer then left else right)
  | .foreign next => if answer then w.goOn next else w.leave
  | .inDestructor h next => if answer then w.goOn next else (w.spare h).leave
  | .requireSet h next => if w.field h then w.goOn next else w.leave
  | .requireClear h next => if w.field h then w.leave else w.goOn next
  | .ifSet h left right => w.goOn (if w.field h then left else right)
  | .pass _ next => w.goOn next
  | .passAll operands next => w.goOn (if answer then .passAll operands next else next)
  | .create h made failed => (w.make h).goOn (if answer then made else failed)
  | .assign h next => (w.make h).goOn next
  | .destroy h next => (w.lose h (w.field h) true).goOn next
  | .clear h next => (w.lose h false false).goOn next
  | .follow _ next => w.goOn next
  | .test p left right => w.goOn (if p w.state then left else right)
  | .update f next => World.goOn next { w with state := f w.state }

end World

inductive Event (M : Type)
  | enter (m : M)
  | proceed (answer : Bool)
  | noMemory

variable (assumes : M → List H) (code : M → Code H S)

/-- Methods are called from outside and by the foreign code that a method lets run. -/
def step (w : World H S) : Event M → Option (World H S)
  | .enter m =>
      if w.frames.head?.all (·.code.isForeign) then
        some { w with frames := ⟨assumes m, code m, fun _ => false⟩ :: w.frames }
      else none
  | .proceed answer => w.frames.head?.map fun frame => w.proceed answer frame.code
  | .noMemory =>
      match w.frames.head?.map Frame.code with
      | some (.create h _ failed) => some ((w.lose h false false).goOn failed)
      | _ => none

/-- What the step passes is live, and the pointer that it follows is not null. -/
def Right (w : World H S) : Event M → Prop
  | .proceed answer => ∀ frame ∈ w.frames.head?,
      (∀ o ∈ frame.code.passed answer, o.isLive w) ∧ frame.code.follows w.state = true
  | _ => True

/-- What the step passes without a look is live, and the rest has not been destroyed since
the method looked; the pointer that it follows is not null. -/
def Meets (w : World H S) : Event M → Prop
  | .proceed answer => ∀ frame ∈ w.frames.head?,
      (∀ o ∈ frame.code.passed answer,
        if o.handle ∈ frame.assumes then o.isLive w
        else frame.lost o.handle = false ∧ w.destroying o.handle = false) ∧
      frame.code.follows w.state = true
  | _ => True

/-! ## The invariant -/

/-- Where the frame stands with a handle that it has looked at. -/
def Stands (w : World H S) (frame : Frame H S) (h : H) : Prop :=
  h ∈ frame.assumes ∨ frame.lost h = true ∨ w.destroying h = true ∨
    (w.field h = true ∧ w.live h = true)

def Frame.Sound (w : World H S) (frame : Frame H S) : Prop :=
  ∃ checked, frame.code.Guarded checked ∧ ∀ h ∈ checked, Stands w frame h

structure Inv (w : World H S) : Prop where
  field : ∀ h, w.field h = true → w.live h = true ∨ w.destroying h = true
  destroying : ∀ h, w.destroying h = true → w.live h = false
  lost : ∀ frame ∈ w.frames, ∀ h, frame.lost h = true → w.live h = false
  sound : ∀ frame ∈ w.frames, frame.Sound w

theorem Frame.setLost_lost (frame : Frame H S) (h h' : H) (lost : Bool) :
    (frame.setLost h lost).lost h' = if h' = h then lost else frame.lost h' :=
  Function.update_apply _ _ _ _

theorem stands_make {w : World H S} {frame : Frame H S} {h : H} (h' : H)
    (hstands : Stands w frame h' ∨ h' = h) : Stands (w.make h) (frame.setLost h false) h' := by
  by_cases heq : h' = h
  · subst heq
    exact Or.inr (Or.inr (Or.inr ⟨Function.update_self .., Function.update_self ..⟩))
  · have hother : Stands w frame h' := hstands.resolve_right heq
    simpa [Stands, World.make, Frame.setLost, Function.update_of_ne heq] using hother

theorem stands_lose {w : World H S} {frame : Frame H S} {h : H} (h' : H) (field destroying : Bool)
    (hstands : Stands w frame h' ∨ h' = h) :
    Stands (w.lose h field destroying) (frame.setLost h true) h' := by
  by_cases heq : h' = h
  · subst heq
    exact Or.inr (Or.inl (Function.update_self ..))
  · have hother : Stands w frame h' := hstands.resolve_right heq
    simpa [Stands, World.lose, Frame.setLost, Function.update_of_ne heq] using hother

theorem Inv.make {w : World H S} (hinv : Inv w) (h : H) : Inv (w.make h) := by
  refine ⟨fun h' hfield => ?_, fun h' hdestroying => ?_, ?_, ?_⟩
  · by_cases heq : h' = h
    · exact Or.inl (heq ▸ Function.update_self ..)
    · have hold := hinv.field h' (by simpa [World.make, Function.update_of_ne heq] using hfield)
      simpa [World.make, Function.update_of_ne heq] using hold
  · by_cases heq : h' = h
    · subst heq
      simp [World.make] at hdestroying
    · have hold :=
        hinv.destroying h' (by simpa [World.make, Function.update_of_ne heq] using hdestroying)
      simpa [World.make, Function.update_of_ne heq] using hold
  · intro frame' hframe' h' hlost
    obtain ⟨frame, hframe, rfl⟩ := List.mem_map.mp hframe'
    rw [Frame.setLost_lost] at hlost
    by_cases heq : h' = h
    · rw [if_pos heq] at hlost
      cases hlost
    · rw [if_neg heq] at hlost
      exact (Function.update_of_ne heq ..).trans (hinv.lost frame hframe h' hlost)
  · intro frame' hframe'
    obtain ⟨frame, hframe, rfl⟩ := List.mem_map.mp hframe'
    obtain ⟨checked, hguarded, hstands⟩ := hinv.sound frame hframe
    exact ⟨checked, hguarded, fun h' hh' => stands_make h' (Or.inl (hstands h' hh'))⟩

theorem Inv.lose {w : World H S} (hinv : Inv w) (h : H) {field destroying : Bool}
    (hfield : field = true → destroying = true) : Inv (w.lose h field destroying) := by
  refine ⟨fun h' hset => ?_, fun h' hdestroying => ?_, ?_, ?_⟩
  · by_cases heq : h' = h
    · subst heq
      have hset' : field = true := by simpa [World.lose] using hset
      exact Or.inr ((Function.update_self ..).trans (hfield hset'))
    · have hold := hinv.field h' (by simpa [World.lose, Function.update_of_ne heq] using hset)
      simpa [World.lose, Function.update_of_ne heq] using hold
  · by_cases heq : h' = h
    · exact heq ▸ Function.update_self ..
    · have hold :=
        hinv.destroying h' (by simpa [World.lose, Function.update_of_ne heq] using hdestroying)
      simpa [World.lose, Function.update_of_ne heq] using hold
  · intro frame' hframe' h' hlost
    obtain ⟨frame, hframe, rfl⟩ := List.mem_map.mp hframe'
    by_cases heq : h' = h
    · exact heq ▸ Function.update_self ..
    · rw [Frame.setLost_lost, if_neg heq] at hlost
      exact (Function.update_of_ne heq ..).trans (hinv.lost frame hframe h' hlost)
  · intro frame' hframe'
    obtain ⟨frame, hframe, rfl⟩ := List.mem_map.mp hframe'
    obtain ⟨checked, hguarded, hstands⟩ := hinv.sound frame hframe
    exact ⟨checked, hguarded, fun h' hh' =>
      stands_lose h' field destroying (Or.inl (hstands h' hh'))⟩

theorem Inv.spare {w : World H S} (hinv : Inv w) (h : H) : Inv (w.spare h) := by
  rw [World.spare]
  split
  · exact hinv.make h
  · exact hinv

omit [DecidableEq H] in
theorem Inv.leave {w : World H S} (hinv : Inv w) : Inv w.leave :=
  ⟨hinv.field, hinv.destroying,
    fun frame hframe => hinv.lost frame (List.mem_of_mem_tail hframe),
    fun frame hframe => hinv.sound frame (List.mem_of_mem_tail hframe)⟩

omit [DecidableEq H] in
/-- The method on top goes on with code that passes what it has looked at. -/
theorem Inv.goOn {w : World H S} (hinv : Inv w) {next : Code H S} {checked : List H}
    (hguarded : next.Guarded checked)
    (hstands : ∀ frame ∈ w.frames.head?, ∀ h ∈ checked, Stands w frame h) : Inv (w.goOn next) := by
  cases hframes : w.frames with
  | nil =>
      have hsame : w.goOn next = w := by
        rw [World.goOn, hframes, List.modifyHead_nil, ← hframes]
      rwa [hsame]
  | cons frame rest =>
      have hmem (frame' : Frame H S) (hframe' : frame' ∈ (w.goOn next).frames) :
          frame' = { frame with code := next } ∨ frame' ∈ w.frames := by
        rw [World.goOn, hframes, List.modifyHead_cons] at hframe'
        rcases List.mem_cons.mp hframe' with heq | hrest
        · exact Or.inl heq
        · exact Or.inr (hframes ▸ List.mem_cons_of_mem _ hrest)
      refine ⟨hinv.field, hinv.destroying, fun frame' hframe' => ?_, fun frame' hframe' => ?_⟩
      · rcases hmem frame' hframe' with rfl | hold
        · exact hinv.lost frame (hframes ▸ List.mem_cons_self)
        · exact hinv.lost frame' hold
      · rcases hmem frame' hframe' with rfl | hold
        · exact ⟨checked, hguarded, fun h hh => hstands frame (by rw [hframes]; rfl) h hh⟩
        · exact hinv.sound frame' hold

omit [DecidableEq H] in
theorem head?_map {w w' : World H S} {f : Frame H S → Frame H S}
    (hmap : w'.frames = w.frames.map f) {frame : Frame H S} (hhead : frame ∈ w.frames.head?) :
    ∀ frame' ∈ w'.frames.head?, frame' = f frame := by
  intro frame' hframe'
  rw [hmap, List.head?_map, Option.mem_def.mp hhead] at hframe'
  exact (Option.some.inj hframe').symm

/-- A step of the method on top keeps the invariant. -/
theorem inv_proceed {w : World H S} (hinv : Inv w) {frame : Frame H S}
    (hhead : frame ∈ w.frames.head?) (answer : Bool) : Inv (w.proceed answer frame.code) := by
  obtain ⟨checked, hguarded, hstands⟩ := hinv.sound frame (List.mem_of_mem_head? hhead)
  have hkeep : ∀ frame' ∈ w.frames.head?, ∀ h ∈ checked, Stands w frame' h := by
    intro frame' hframe'
    obtain rfl := Option.some.inj (hframe'.symm.trans hhead)
    exact hstands
  have hlook {h : H} (hset : w.field h = true) :
      ∀ frame' ∈ w.frames.head?, ∀ h' ∈ h :: checked, Stands w frame' h' := by
    intro frame' hframe' h' hh'
    rcases List.mem_cons.mp hh' with rfl | hh'
    · rcases hinv.field h' hset with hlive | hdestroying
      · exact Or.inr (Or.inr (Or.inr ⟨hset, hlive⟩))
      · exact Or.inr (Or.inr (Or.inl hdestroying))
    · exact hkeep frame' hframe' h' hh'
  have hmake (h : H) :
      ∀ frame' ∈ (w.make h).frames.head?, ∀ h' ∈ h :: checked, Stands (w.make h) frame' h' := by
    intro frame' hframe' h' hh'
    rw [head?_map rfl hhead frame' hframe']
    rcases List.mem_cons.mp hh' with heq | hh'
    · exact stands_make h' (Or.inr heq)
    · exact stands_make h' (Or.inl (hstands h' hh'))
  have hlose (h : H) (field destroying : Bool) :
      ∀ frame' ∈ (w.lose h field destroying).frames.head?, ∀ h' ∈ checked,
        Stands (w.lose h field destroying) frame' h' := by
    intro frame' hframe' h' hh'
    rw [head?_map rfl hhead frame' hframe']
    exact stands_lose h' field destroying (Or.inl (hstands h' hh'))
  cases hcode : frame.code with
  | done => exact hinv.leave
  | raised => exact hinv.leave
  | either left right =>
      rw [hcode] at hguarded
      cases answer with
      | true => exact hinv.goOn hguarded.1 hkeep
      | false => exact hinv.goOn hguarded.2 hkeep
  | foreign next =>
      rw [hcode] at hguarded
      cases answer with
      | true => exact hinv.goOn hguarded hkeep
      | false => exact hinv.leave
  | inDestructor h next =>
      rw [hcode] at hguarded
      cases answer with
      | true => exact hinv.goOn hguarded hkeep
      | false => exact (hinv.spare h).leave
  | requireSet h next =>
      rw [hcode] at hguarded
      rw [World.proceed]
      split
      · rename_i hset
        exact hinv.goOn hguarded (hlook hset)
      · exact hinv.leave
  | requireClear h next =>
      rw [hcode] at hguarded
      rw [World.proceed]
      split
      · exact hinv.leave
      · exact hinv.goOn hguarded hkeep
  | ifSet h left right =>
      rw [hcode] at hguarded
      rw [World.proceed]
      split
      · rename_i hset
        exact hinv.goOn hguarded.1 (hlook hset)
      · exact hinv.goOn hguarded.2 hkeep
  | pass operands next =>
      rw [hcode] at hguarded
      exact hinv.goOn hguarded.2 hkeep
  | passAll operands next =>
      rw [hcode] at hguarded
      cases answer with
      | true => exact hinv.goOn hguarded hkeep
      | false => exact hinv.goOn hguarded.2 hkeep
  | create h made failed =>
      rw [hcode] at hguarded
      cases answer with
      | true => exact (hinv.make h).goOn hguarded.1 (hmake h)
      | false => exact (hinv.make h).goOn hguarded.2 (hmake h)
  | assign h next =>
      rw [hcode] at hguarded
      exact (hinv.make h).goOn hguarded (hmake h)
  | destroy h next =>
      rw [hcode] at hguarded
      exact (hinv.lose h fun _ => rfl).goOn hguarded.2 (hlose h _ _)
  | clear h next =>
      rw [hcode] at hguarded
      exact (hinv.lose h id).goOn hguarded (hlose h _ _)
  | follow p next =>
      rw [hcode] at hguarded
      exact hinv.goOn hguarded hkeep
  | test p left right =>
      rw [hcode] at hguarded
      rw [World.proceed]
      split
      · exact hinv.goOn hguarded.1 hkeep
      · exact hinv.goOn hguarded.2 hkeep
  | update f next =>
      rw [hcode] at hguarded
      have hupdated : Inv { w with state := f w.state } :=
        ⟨hinv.field, hinv.destroying, hinv.lost, hinv.sound⟩
      exact hupdated.goOn hguarded hkeep

variable {assumes : M → List H} {code : M → Code H S}

theorem inv_step (hguarded : ∀ m, (code m).Guarded (assumes m)) {w w' : World H S} {e : Event M}
    (hinv : Inv w) (hstep : step assumes code w e = some w') : Inv w' := by
  cases e with
  | enter m =>
      rw [step] at hstep
      split at hstep
      · obtain rfl := Option.some.inj hstep
        refine ⟨hinv.field, hinv.destroying, fun frame hframe => ?_, fun frame hframe => ?_⟩
        · rcases List.mem_cons.mp hframe with rfl | hframe
          · intro h hlost
            cases hlost
          · exact hinv.lost frame hframe
        · rcases List.mem_cons.mp hframe with rfl | hframe
          · exact ⟨assumes m, hguarded m, fun h hh => Or.inl hh⟩
          · exact hinv.sound frame hframe
      · cases hstep
  | proceed answer =>
      obtain ⟨frame, hhead, rfl⟩ := Option.map_eq_some_iff.mp hstep
      exact inv_proceed hinv hhead answer
  | noMemory =>
      rw [step] at hstep
      split at hstep
      · rename_i h made failed hcode
        obtain rfl := Option.some.inj hstep
        obtain ⟨frame, hhead, hcode⟩ := Option.map_eq_some_iff.mp hcode
        obtain ⟨checked, hguarded, hstands⟩ := hinv.sound frame (List.mem_of_mem_head? hhead)
        rw [hcode] at hguarded
        refine (hinv.lose h id).goOn hguarded.2 fun frame' hframe' h' hh' => ?_
        rw [head?_map rfl hhead frame' hframe']
        refine stands_lose h' false false ?_
        rcases List.mem_cons.mp hh' with heq | hh'
        · exact Or.inr heq
        · exact Or.inl (hstands h' hh')
      · cases hstep

omit [DecidableEq H] in
/-- A handle that the method has looked at and has not lost is live. -/
theorem isLive_iff {w : World H S} (hinv : Inv w) {frame : Frame H S}
    (hframe : frame ∈ w.frames) {o : Operand H} (hassumes : o.handle ∉ frame.assumes)
    (hstands : Stands w frame o.handle) :
    o.isLive w ↔ frame.lost o.handle = false ∧ w.destroying o.handle = false := by
  have hlive : o.isLive w → w.live o.handle = true := by
    cases o with
    | field h => exact And.right
    | captured h => exact id
  constructor
  · intro h
    constructor
    · rw [Bool.eq_false_iff]
      intro hlost
      exact Bool.false_ne_true ((hinv.lost frame hframe _ hlost).symm.trans (hlive h))
    · rw [Bool.eq_false_iff]
      intro hdestroying
      exact Bool.false_ne_true ((hinv.destroying _ hdestroying).symm.trans (hlive h))
  · rintro ⟨hlost, hdestroying⟩
    have hthere : w.field o.handle = true ∧ w.live o.handle = true := by
      simpa [Stands, hassumes, hlost, hdestroying] using hstands
    cases o with
    | field h => exact hthere
    | captured h => exact hthere.2

theorem right_iff_meets {w : World H S} (hinv : Inv w) (e : Event M) : Right w e ↔ Meets w e := by
  cases e with
  | enter m => exact Iff.rfl
  | noMemory => exact Iff.rfl
  | proceed answer =>
      refine forall₂_congr fun frame hhead => and_congr_left' ?_
      obtain ⟨checked, hguarded, hstands⟩ := hinv.sound frame (List.mem_of_mem_head? hhead)
      refine forall₂_congr fun o ho => ?_
      by_cases hassumes : o.handle ∈ frame.assumes
      · rw [if_pos hassumes]
      · rw [if_neg hassumes]
        exact isLive_iff hinv (List.mem_of_mem_head? hhead) hassumes
          (hstands _ (hguarded.passed answer o ho))

/-- Over any run of methods that pass what they have looked at, apart from what they assume:
all that is passed is live exactly when every step meets the condition. -/
theorem right_iff_meets_run (hguarded : ∀ m, (code m).Guarded (assumes m)) {w : World H S}
    (hinv : Inv w) (es : List (Event M)) :
    StepSystem.AlwaysStep (step assumes code) Right w es ↔
      StepSystem.AlwaysStep (step assumes code) Meets w es :=
  StepSystem.alwaysStep_congr (fun _ _ _ h => inv_step hguarded h)
    (fun _ e _ h _ => right_iff_meets h e) hinv

end Steps

end Handles
