import Sqlite3Ruby.Batch
import Sqlite3Ruby.History

/-!
# The statements of a script

`execute_batch` prepares the text that is left, runs the statement that SQLite found at
its front, and goes on with `remainder`. A walk through a script says what this comes
to, without the strings and without the database object.

## Implementation notes

Where a statement ends is for SQLite to say, and may depend on the content at that
time. All that is needed of it is that it takes some characters off the front of a text
that is not blank. It reads no more of a text than the length in its `int` says, so that a
text of `2 ^ 32` bytes is none to it.
-/

namespace Sqlite3Ruby.Query

variable {C : Type}

/-! ## Walks -/

/-- The text begins with something else than whitespace. -/
def Starts (cs : List Char) : Prop := ∃ c ∈ cs.head?, isSpace c.toNat = false

/-- How SQLite takes texts apart. A front part without a statement is `silent`: blank, or
a comment. -/
structure ConsumesPrefix (silent : List Char → Prop) (compile : List UInt8 → C → Compiled C) :
    Prop where
  statement : ∀ {cs content program tail}, Starts cs → '\x00' ∉ cs →
    compile (Utf8.encode cs) content = .statement program tail →
      ∃ head rest, cs = head ++ rest ∧ head ≠ [] ∧ tail = Utf8.encode rest ∧ ¬ silent head
  noStatement : ∀ {cs content tail}, Starts cs → '\x00' ∉ cs →
    compile (Utf8.encode cs) content = .noStatement tail →
      ∃ head rest, cs = head ++ rest ∧ head ≠ [] ∧ tail = Utf8.encode rest ∧ silent head

/-- A part of a script that was prepared, with what the first step of its statement
answered. -/
inductive Piece (C : Type)
  | silent (text : List Char)
  | ran (text : List Char) (program : Program C) (answer : Outcome (Option (List Value)))

namespace Piece

def text : Piece C → List Char
  | silent text => text
  | ran text _ _ => text

/-- The row, or `nil`, of a statement that has been run. -/
def row : Piece C → Option (Option (List Value))
  | ran _ _ (.ok row) => some row
  | _ => none

end Piece

/-- The row of the last statement that was run. -/
def lastRow (result : Option (List Value)) (pieces : List (Piece C)) : Option (List Value) :=
  (pieces.filterMap Piece.row).getLast?.getD result

/-- What is done with a new statement: it is bound when the lengths agree, and stepped
once. -/
def runOnce (host : Host) (vars : BindVar) (length : Outcome Nat) :
    StatementM C (Option (List Value)) := do
  let length ← RubyM.lift length
  let m ← RubyM.get
  if length = m.statement.program.parameterCount then Statement.bindParams host [vars] else pure ()
  Statement.step

/-- What this answers, and the content it leaves. -/
def firstStep (host : Host) (vars : BindVar) (length : Outcome Nat) (program : Program C)
    (content : C) : Outcome (Option (List Value)) × C :=
  let r := runOnce host vars length (Statement.prepared program content)
  (r.1, r.2.content)

section Walk

variable (host : Host) (compile : List UInt8 → C → Compiled C) (silent : List Char → Prop)
  (vars : BindVar) (length : Outcome Nat)

/-- What SQLite can find at the front of a text. -/
inductive Found (C : Type)
  | refused (o : Outcome Unit)
  | silent (head rest : List Char)
  | statement (head rest : List Char) (program : Program C)

/-- This is what SQLite finds at the front of the text. -/
def Finds (cs : List Char) (content : C) : Found C → Prop
  | .refused o => ∃ status errmsg,
      compile (Utf8.encode cs) content = .error status errmsg ∧ o = check status.1 errmsg
  | .silent head rest => cs = head ++ rest ∧
      compile (Utf8.encode cs) content = .noStatement (Utf8.encode rest) ∧ silent head
  | .statement head rest program => cs = head ++ rest ∧
      compile (Utf8.encode cs) content = .statement program (Utf8.encode rest) ∧ ¬ silent head

/-- A walk through a text from a content: the parts one after the other with the
whitespace between them, each statement run before the next part is looked for, up to
the end or to the first part that raises. -/
inductive Walk : List Char → C → List (Piece C) → Outcome Unit → C → Prop
  | finished {content} : Walk [] content [] (.ok ()) content
  | space {c cs content pieces o content'} (hspace : isSpace c.toNat = true)
      (hrest : Walk cs content pieces o content') : Walk (c :: cs) content pieces o content'
  | refused {cs content o} (hstarts : Starts cs)
      (hfinds : Finds compile silent cs content (.refused o)) : Walk cs content [] o content
  | silent {cs head rest content pieces o content'} (hstarts : Starts cs)
      (hfinds : Finds compile silent cs content (.silent head rest))
      (hrest : Walk rest content pieces o content') :
      Walk cs content (.silent head :: pieces) o content'
  | ran {cs head rest content program row content₁ pieces o content'} (hstarts : Starts cs)
      (hfinds : Finds compile silent cs content (.statement head rest program))
      (hstep : firstStep host vars length program content = (.ok row, content₁))
      (hrest : Walk rest content₁ pieces o content') :
      Walk cs content (.ran head program (.ok row) :: pieces) o content'
  | stopped {cs head rest content program answer content'} (hstarts : Starts cs)
      (hfinds : Finds compile silent cs content (.statement head rest program))
      (hstep : firstStep host vars length program content = (answer, content'))
      (hanswer : ¬ answer.Returns) :
      Walk cs content [.ran head program answer] ((fun _ => ()) <$> answer) content'

end Walk

variable {host : Host} {compile : List UInt8 → C → Compiled C} {silent : List Char → Prop}
  {vars : BindVar} {length : Outcome Nat}

/-! ## What a walk says -/

theorem not_starts_nil : ¬ Starts [] := by
  rintro ⟨c, hc, -⟩
  cases hc

theorem not_starts_space {c : Char} {cs : List Char} (hspace : isSpace c.toNat = true) :
    ¬ Starts (c :: cs) := by
  rintro ⟨c', hc', hnot⟩
  obtain rfl := Option.some.inj hc'
  rw [hspace] at hnot
  cases hnot

/-- SQLite finds one thing at most. -/
theorem Finds.unique {cs : List Char} {content : C} {found found' : Found C}
    (h : Finds compile silent cs content found) (h' : Finds compile silent cs content found') :
    found = found' := by
  have hrest {head rest head' rest' : List Char} (hcs : cs = head ++ rest)
      (hcs' : cs = head' ++ rest') (htail : Utf8.encode rest = Utf8.encode rest') :
      head = head' ∧ rest = rest' := by
    obtain rfl := Utf8.encode_injective htail
    exact ⟨List.append_cancel_right (hcs.symm.trans hcs'), rfl⟩
  cases found with
  | refused o =>
      obtain ⟨status, errmsg, hcompile, rfl⟩ := h
      cases found' with
      | refused o' =>
          obtain ⟨status', errmsg', hcompile', rfl⟩ := h'
          obtain ⟨rfl, rfl⟩ := Compiled.error.inj (hcompile.symm.trans hcompile')
          rfl
      | silent => cases hcompile.symm.trans h'.2.1
      | statement => cases hcompile.symm.trans h'.2.1
  | silent head rest =>
      cases found' with
      | refused o' =>
          obtain ⟨_, _, hcompile', -⟩ := h'
          cases hcompile'.symm.trans h.2.1
      | silent head' rest' =>
          obtain ⟨rfl, rfl⟩ :=
            hrest h.1 h'.1 (Compiled.noStatement.inj (h.2.1.symm.trans h'.2.1))
          rfl
      | statement => cases h.2.1.symm.trans h'.2.1
  | statement head rest program =>
      cases found' with
      | refused o' =>
          obtain ⟨_, _, hcompile', -⟩ := h'
          cases hcompile'.symm.trans h.2.1
      | silent => cases h.2.1.symm.trans h'.2.1
      | statement head' rest' program' =>
          obtain ⟨rfl, htail⟩ := Compiled.statement.inj (h.2.1.symm.trans h'.2.1)
          obtain ⟨rfl, rfl⟩ := hrest h.1 h'.1 htail
          rfl

/-- SQLite, the content and the text leave one way to walk. -/
theorem Walk.unique {cs : List Char} {content content₁ content₂ : C}
    {pieces₁ pieces₂ : List (Piece C)} {o₁ o₂ : Outcome Unit}
    (h₁ : Walk host compile silent vars length cs content pieces₁ o₁ content₁)
    (h₂ : Walk host compile silent vars length cs content pieces₂ o₂ content₂) :
    pieces₁ = pieces₂ ∧ o₁ = o₂ ∧ content₁ = content₂ := by
  induction h₁ generalizing pieces₂ o₂ content₂ with
  | finished =>
      cases h₂ with
      | finished => exact ⟨rfl, rfl, rfl⟩
      | refused hstarts => exact absurd hstarts not_starts_nil
      | silent hstarts => exact absurd hstarts not_starts_nil
      | ran hstarts => exact absurd hstarts not_starts_nil
      | stopped hstarts => exact absurd hstarts not_starts_nil
  | space hspace _ ih =>
      cases h₂ with
      | space _ hrest => exact ih hrest
      | refused hstarts => exact absurd hstarts (not_starts_space hspace)
      | silent hstarts => exact absurd hstarts (not_starts_space hspace)
      | ran hstarts => exact absurd hstarts (not_starts_space hspace)
      | stopped hstarts => exact absurd hstarts (not_starts_space hspace)
  | refused hstarts hfinds =>
      cases h₂ with
      | finished => exact absurd hstarts not_starts_nil
      | space hspace => exact absurd hstarts (not_starts_space hspace)
      | refused _ hfinds' =>
          obtain rfl := Found.refused.inj (hfinds.unique hfinds')
          exact ⟨rfl, rfl, rfl⟩
      | silent _ hfinds' => cases hfinds.unique hfinds'
      | ran _ hfinds' => cases hfinds.unique hfinds'
      | stopped _ hfinds' => cases hfinds.unique hfinds'
  | silent hstarts hfinds _ ih =>
      cases h₂ with
      | finished => exact absurd hstarts not_starts_nil
      | space hspace => exact absurd hstarts (not_starts_space hspace)
      | refused _ hfinds' => cases hfinds.unique hfinds'
      | silent _ hfinds' hrest =>
          obtain ⟨rfl, rfl⟩ := Found.silent.inj (hfinds.unique hfinds')
          obtain ⟨rfl, rfl, rfl⟩ := ih hrest
          exact ⟨rfl, rfl, rfl⟩
      | ran _ hfinds' => cases hfinds.unique hfinds'
      | stopped _ hfinds' => cases hfinds.unique hfinds'
  | ran hstarts hfinds hstep _ ih =>
      cases h₂ with
      | finished => exact absurd hstarts not_starts_nil
      | space hspace => exact absurd hstarts (not_starts_space hspace)
      | refused _ hfinds' => cases hfinds.unique hfinds'
      | silent _ hfinds' => cases hfinds.unique hfinds'
      | ran _ hfinds' hstep' hrest =>
          obtain ⟨rfl, rfl, rfl⟩ := Found.statement.inj (hfinds.unique hfinds')
          obtain ⟨hrow, rfl⟩ := Prod.mk.inj (hstep.symm.trans hstep')
          obtain rfl := Outcome.ok.inj hrow
          obtain ⟨rfl, rfl, rfl⟩ := ih hrest
          exact ⟨rfl, rfl, rfl⟩
      | stopped _ hfinds' hstep' hanswer =>
          obtain ⟨-, -, rfl⟩ := Found.statement.inj (hfinds.unique hfinds')
          obtain ⟨rfl, -⟩ := Prod.mk.inj (hstep.symm.trans hstep')
          exact absurd (Outcome.returns_ok _) hanswer
  | stopped hstarts hfinds hstep hanswer =>
      cases h₂ with
      | finished => exact absurd hstarts not_starts_nil
      | space hspace => exact absurd hstarts (not_starts_space hspace)
      | refused _ hfinds' => cases hfinds.unique hfinds'
      | silent _ hfinds' => cases hfinds.unique hfinds'
      | ran _ hfinds' hstep' =>
          obtain ⟨-, -, rfl⟩ := Found.statement.inj (hfinds.unique hfinds')
          obtain ⟨rfl, -⟩ := Prod.mk.inj (hstep.symm.trans hstep')
          exact absurd (Outcome.returns_ok _) hanswer
      | stopped _ hfinds' hstep' _ =>
          obtain ⟨rfl, rfl, rfl⟩ := Found.statement.inj (hfinds.unique hfinds')
          obtain ⟨rfl, rfl⟩ := Prod.mk.inj (hstep.symm.trans hstep')
          exact ⟨rfl, rfl, rfl⟩

/-- The characters of a text that are not whitespace. -/
def inked (cs : List Char) : List Char := cs.filter fun c => !isSpace c.toNat

/-- Apart from whitespace the parts are the front of the text, and all of it when nothing
raised. -/
def Covers (pieces : List (Piece C)) (cs : List Char) (o : Outcome Unit) : Prop :=
  inked (pieces.flatMap Piece.text) <+: inked cs ∧
    (o = .ok () → inked (pieces.flatMap Piece.text) = inked cs)

theorem covers_cons {cs rest : List Char} {pieces : List (Piece C)} {o : Outcome Unit}
    (piece : Piece C) (hcs : cs = piece.text ++ rest) (h : Covers pieces rest o) :
    Covers (piece :: pieces) cs o := by
  subst hcs
  rw [Covers, List.flatMap_cons, inked, inked, List.filter_append, List.filter_append]
  exact ⟨(List.prefix_append_right_inj _).mpr h.1, fun ho => congrArg _ (h.2 ho)⟩

theorem covers_nil (cs : List Char) {o : Outcome Unit} (ho : o ≠ .ok ()) :
    Covers ([] : List (Piece C)) cs o := ⟨List.nil_prefix, fun h => absurd h ho⟩

theorem Walk.covers {cs : List Char} {content content' : C} {pieces : List (Piece C)}
    {o : Outcome Unit} (h : Walk host compile silent vars length cs content pieces o content') :
    Covers pieces cs o := by
  induction h with
  | finished => exact ⟨List.prefix_rfl, fun _ => rfl⟩
  | @space c cs _ _ _ _ hspace _ ih =>
      have hinked : inked (c :: cs) = inked cs := List.filter_cons_of_neg (by simp [hspace])
      rw [Covers, hinked]
      exact ih
  | refused _ hfinds =>
      obtain ⟨status, errmsg, -, rfl⟩ := hfinds
      exact covers_nil _ fun ho => status.2 ((check_eq_ok_iff _ _).mp ho)
  | silent _ hfinds _ ih => exact covers_cons _ hfinds.1 ih
  | ran _ hfinds _ _ ih => exact covers_cons _ hfinds.1 ih
  | @stopped _ _ _ _ _ answer _ _ hfinds _ hanswer =>
      refine covers_cons _ hfinds.1 (covers_nil _ fun ho => ?_)
      cases answer with
      | ok row => exact hanswer (Outcome.returns_ok row)
      | raise e => cases ho
      | jump tag => cases ho

/-! ## One round of the loop -/

theorem Database.put_put (db : Database C) (id : Nat) (m m' : Machine C) :
    (db.put id m).put id m' = db.put id m' := by
  simp only [put, List.set_set]

theorem Database.machine_put (db : Database C) (id : Nat) (m : Machine C) :
    (db.put id m).machine m.statement = m := rfl

/-- What is done `unless stmt.closed?` is done to the machine. -/
theorem batchStep_open (host : Host) (vars : BindVar) (length : Outcome Nat) {stmt : Prepared}
    {db : Database C} {s : Statement C}
    (h : db.statement stmt.id = some s) (result : Option (List Value)) (rounds : Nat) :
    batchStep host vars length stmt result rounds db =
      some ((runOnce host vars length (db.machine s)).1,
        db.put stmt.id (runOnce host vars length (db.machine s)).2) := by
  have hcount := onStatement_read h (·.statement.program.parameterCount) rounds
  rw [batchStep, CallM.get_bind, h, if_neg (by simp), runOnce]
  cases length with
  | raise e =>
      exact congrArg (fun db' => some (Outcome.raise e, db')) (Database.put_machine h).symm
  | jump tag =>
      exact congrArg (fun db' => some (Outcome.jump tag, db')) (Database.put_machine h).symm
  | ok n =>
      rw [CallM.lift_ok_bind, RubyM.lift_ok_bind, RubyM.get_bind, bindParameterCount,
        CallM.bind_run_ok _ _ hcount]
      by_cases hn : n = (db.machine s).statement.program.parameterCount
      · have hbind := bindParams_run host [vars] rounds h
        rw [if_pos hn, if_pos hn]
        rcases hrun : Statement.bindParams host [vars] (db.machine s) with ⟨o, m⟩
        rw [hrun] at hbind
        cases o with
        | raise e => rw [CallM.bind_run_raise _ hbind, RubyM.bind_run_raise _ hrun]
        | jump tag => rw [CallM.bind_run_jump _ hbind, RubyM.bind_run_jump _ hrun]
        | ok u =>
            have hstep := step_run (Database.statement_put h m) rounds
            rw [Database.put_put, Database.machine_put] at hstep
            rw [CallM.bind_run_ok u _ hbind, RubyM.bind_run_ok u _ hrun]
            exact hstep
      · rw [if_neg hn, if_neg hn]
        exact step_run h rounds

/-- The record plays no part in what is done with a statement. -/
theorem runOnce_events (host : Host) (vars : BindVar) (length : Outcome Nat) {m m' : Machine C}
    (h : Statement.SameButEvents m m') :
    (runOnce host vars length m).1 = (runOnce host vars length m').1 ∧
      Statement.SameButEvents (runOnce host vars length m).2 (runOnce host vars length m').2 := by
  obtain ⟨events, rfl⟩ := h
  rw [runOnce]
  cases length with
  | raise e => exact ⟨rfl, events, rfl⟩
  | jump tag => exact ⟨rfl, events, rfl⟩
  | ok n =>
      rw [RubyM.lift_ok_bind, RubyM.lift_ok_bind, RubyM.get_bind, RubyM.get_bind]
      have hprogram : (m.withEvents events).statement.program = m.statement.program := rfl
      rw [hprogram]
      by_cases hn : n = m.statement.program.parameterCount
      · have hbind : Statement.bindParams host [vars] (m.withEvents events) = _ :=
          Statement.bindEach_commutes host events 1 (flattenAll [vars]) m
        rw [if_pos hn]
        rcases hrun : Statement.bindParams host [vars] m with ⟨o, m₁⟩
        have hrun' : Statement.bindParams host [vars] (m.withEvents events) =
            (o, m₁.withEvents events) := by
          rw [hbind]
          exact congrArg (fun r => (r.1, r.2.withEvents events)) hrun
        have hsame : Statement.SameButEvents m₁ (m₁.withEvents events) := ⟨events, rfl⟩
        cases o with
        | raise e =>
            rw [RubyM.bind_run_raise _ hrun, RubyM.bind_run_raise _ hrun']
            exact ⟨rfl, hsame⟩
        | jump tag =>
            rw [RubyM.bind_run_jump _ hrun, RubyM.bind_run_jump _ hrun']
            exact ⟨rfl, hsame⟩
        | ok u =>
            rw [RubyM.bind_run_ok u _ hrun, RubyM.bind_run_ok u _ hrun']
            exact hsame.step
      · rw [if_neg hn]
        exact Statement.SameButEvents.step ⟨events, rfl⟩

theorem runOnce_first (host : Host) (vars : BindVar) (length : Outcome Nat) (program : Program C)
    (content : C) (events : List VmEvent) :
    ((runOnce host vars length ⟨content, { program }, events⟩).1,
        (runOnce host vars length ⟨content, { program }, events⟩).2.content) =
      firstStep host vars length program content := by
  have hsame : Statement.SameButEvents (Statement.prepared program content)
      ⟨content, { program }, events⟩ := ⟨events, rfl⟩
  obtain ⟨houtcome, hmachine⟩ := runOnce_events host vars length hsame
  rw [firstStep, houtcome, hmachine.content]

/-- The database after these many statements, which are closed. -/
def Database.after (db : Database C) (count : Nat) (content : C) (events : List VmEvent) :
    Database C :=
  { db with content, events, statements := db.statements ++ List.replicate count none }

theorem Database.after_after (db : Database C) (count count' : Nat) (content content' : C)
    (events events' : List VmEvent) :
    (db.after count content events).after count' content' events' =
      db.after (count + count') content' events' := by
  simp only [after, List.append_assoc, List.replicate_append_replicate]

/-- A statement that was prepared, used and closed. -/
theorem Database.without_put_push (db : Database C) (s : Statement C) (m : Machine C) :
    ((db.push (some s)).put db.statements.length m).without db.statements.length =
      db.after 1 m.content m.events := by
  have hopen : ((db.push (some s)).put db.statements.length m).statement db.statements.length =
      some m.statement := Database.statement_put (Database.statement_push db _) m
  rw [without, hopen, if_neg (by simp)]
  simp [finalize, put, push, after]

theorem Database.without_push (db : Database C) :
    (db.push none).without db.statements.length = db.after 1 db.content db.events := by
  rw [without, Database.statement_push, if_pos (by simp)]
  rfl

/-! ## The loop -/

/-- The string holds this stripped text. -/
structure Holds (host : Host) (sql : RString) (cs : List Char) : Prop where
  encode : strEncodeUtf8 host sql = .ok (Utf8.encode cs)
  empty : sql.bytes = [] ↔ cs = []
  stripped : stripSpaces Char.toNat cs = cs
  zero_not_mem : '\x00' ∉ cs

/-- It is short enough to be read as a whole. -/
structure HoldsShort (host : Host) (sql : RString) (cs : List Char) : Prop
    extends Holds host sql cs where
  short : (Utf8.encode cs).length < 2 ^ 32

theorem encode_eq_nil_iff (cs : List Char) : Utf8.encode cs = [] ↔ cs = [] := by
  rw [← Utf8.encode_injective.eq_iff]
  rfl

theorem Holds.starts {sql : RString} {cs : List Char} (h : Holds host sql cs) (hne : cs ≠ []) :
    Starts cs := by
  obtain ⟨c, rest, rfl⟩ := List.exists_cons_of_ne_nil hne
  exact ⟨c, rfl, strip_head (l := c :: rest) (by rw [h.stripped]; rfl)⟩

theorem Holds.isFinished {b : BatchState} {cs : List Char} (h : Holds host b.sql cs)
    (hne : cs ≠ []) : b.isFinished = false :=
  List.isEmpty_eq_false_iff.mpr (h.empty.not.mpr hne)

/-- The `remainder` of a text, which the loop goes on with. -/
theorem HoldsShort.rest {sql : RString} {head rest : List Char}
    (h : HoldsShort host sql (head ++ rest)) :
    (utf8String (Utf8.encode rest)).strip host =
        .ok (utf8String (Utf8.encode (rest.dropWhile fun c => isSpace c.toNat))) ∧
      HoldsShort host (utf8String (Utf8.encode (rest.dropWhile fun c => isSpace c.toNat)))
        (rest.dropWhile fun c => isSpace c.toNat) := by
  have hstrip : stripSpaces Char.toNat rest = rest.dropWhile fun c => isSpace c.toNat :=
    strip_rest h.stripped
  obtain ⟨spaces, hspaces⟩ := List.dropWhile_suffix (l := rest) fun c => isSpace c.toNat
  refine ⟨?_, ⟨rfl, encode_eq_nil_iff _, ?_, fun hmem => ?_⟩, ?_⟩
  · rw [strip_utf8String host ⟨rest, rfl⟩, strip_utf8, hstrip]
  · rw [← hstrip]
    refine (strip_rest (l := head ++ rest.takeWhile fun c => isSpace c.toNat) ?_).trans ?_
    · rw [hstrip, List.append_assoc, List.takeWhile_append_dropWhile]
      exact h.stripped
    · rw [hstrip, List.dropWhile_idempotent]
  · exact h.zero_not_mem (List.mem_append_right _ ((List.dropWhile_sublist _).subset hmem))
  · have hshort := h.short
    rw [← hspaces, Utf8.encode, List.flatMap_append, List.flatMap_append, List.length_append,
      List.length_append] at hshort
    exact (Nat.le_trans (Nat.le_add_left _ _) (Nat.le_add_left _ _)).trans_lt hshort

section Body

variable {b : BatchState} {db : Database C} {cs head rest : List Char}

theorem Finds.refused_raises {content : C} {o : Outcome Unit}
    (h : Finds compile silent cs content (.refused o)) : ∃ e, o = .raise e := by
  obtain ⟨status, errmsg, -, rfl⟩ := h
  obtain ⟨e, he, -⟩ := check_errorStatus status errmsg
  exact ⟨e, he⟩

theorem batchBody_refused (hopen : db.isOpen = true) (hholds : HoldsShort host b.sql cs)
    {e : RubyException} (hfinds : Finds compile silent cs db.content (.refused (.raise e)))
    (rounds : Nat) : batchBody host compile vars length b rounds db = some (.raise e, db) := by
  obtain ⟨status, errmsg, hcompile, he⟩ := hfinds
  refine CallM.bind_run_raise _ ?_
  rw [prepare, CallM.get_bind, if_pos hopen, hholds.encode, CallM.lift_ok_bind,
    sqlRead_eq hholds.short, cString_encode hholds.zero_not_mem, hcompile]
  change (CallM.lift (check status.1 errmsg) >>= _) rounds db = _
  rw [← he]
  rfl

theorem batchBody_silent (hopen : db.isOpen = true) (hholds : HoldsShort host b.sql cs)
    (hfinds : Finds compile silent cs db.content (.silent head rest)) (rounds : Nat) :
    batchBody host compile vars length b rounds db =
      some (.ok ⟨utf8String (Utf8.encode (rest.dropWhile fun c => isSpace c.toNat)), b.result⟩,
        db.after 1 db.content db.events) := by
  obtain ⟨rfl, hcompile, -⟩ := hfinds
  have hprepare := prepare_noStatement_short rounds hopen hholds.encode hholds.short
    ((cString_encode hholds.zero_not_mem).symm ▸ hcompile)
  have hclosed : batchStep host vars length ⟨db.statements.length, Utf8.encode rest⟩ b.result rounds
      (db.push none) = some (.ok b.result, db.push none) := by
    rw [batchStep, CallM.get_bind, Database.statement_push, if_pos (by simp)]
    rfl
  rw [← Database.without_push]
  refine prepareBlock_run rounds hprepare ?_
  rw [CallM.bind_run_ok b.result _ hclosed, hholds.rest.1]
  rfl

theorem batchBody_runs (hopen : db.isOpen = true) (hholds : HoldsShort host b.sql cs)
    {program : Program C} (hfinds : Finds compile silent cs db.content (.statement head rest program))
    {answer : Outcome (Option (List Value))} {content : C}
    (hstep : firstStep host vars length program db.content = (answer, content)) (rounds : Nat) :
    ∃ events, batchBody host compile vars length b rounds db =
      some ((fun row =>
          (⟨utf8String (Utf8.encode (rest.dropWhile fun c => isSpace c.toNat)), row⟩ : BatchState))
            <$> answer,
        db.after 1 content events) := by
  obtain ⟨rfl, hcompile, -⟩ := hfinds
  have hprepare := prepare_statement_short rounds hopen hholds.encode hholds.short
    ((cString_encode hholds.zero_not_mem).symm ▸ hcompile)
  have hnew := Database.statement_push db (some { program })
  let stmt : Prepared := ⟨db.statements.length, Utf8.encode rest⟩
  have hrun : batchStep host vars length stmt b.result rounds (db.push (some { program })) = _ :=
    batchStep_open host vars length hnew b.result rounds
  have hfirst := runOnce_first host vars length program db.content db.events
  rw [hstep] at hfirst
  obtain ⟨hanswer, rfl⟩ := Prod.mk.inj hfirst
  rw [show runOnce host vars length ((db.push (some { program })).machine { program }) =
    runOnce host vars length ⟨db.content, { program }, db.events⟩ from rfl] at hrun
  generalize runOnce host vars length ⟨db.content, { program }, db.events⟩ = r at hrun hanswer
  refine ⟨r.2.events, ?_⟩
  rw [← Database.without_put_push]
  refine prepareBlock_run rounds hprepare ?_
  rw [hanswer] at hrun
  cases answer with
  | raise e => exact CallM.bind_run_raise _ hrun
  | jump tag => exact CallM.bind_run_jump _ hrun
  | ok row =>
      rw [CallM.bind_run_ok row _ hrun, hholds.rest.1]
      rfl

end Body

theorem Database.after_zero (db : Database C) : db.after 0 db.content db.events = db := by
  simp [after]

theorem lastRow_ran (result row : Option (List Value)) (head : List Char) (program : Program C)
    (pieces : List (Piece C)) :
    lastRow result (.ran head program (.ok row) :: pieces) = lastRow row pieces := by
  have hrow : Piece.row (.ran head program (.ok row)) = some row := rfl
  rw [lastRow, lastRow, List.filterMap_cons_some hrow, List.getLast?_cons, Option.getD_some]

/-- From here the loop uses up these parts, and ends as the walk does. -/
def LoopsTo (host : Host) (compile : List UInt8 → C → Compiled C) (vars : BindVar)
    (length : Outcome Nat) (b : BatchState) (db : Database C) (pieces : List (Piece C))
    (o : Outcome Unit) (content : C) : Prop :=
  ∀ limit, pieces.length < limit → ∀ rounds, ∃ events,
    (CallM.untilRounds BatchState.isFinished (batchBody host compile vars length) limit b >>=
        fun b => pure b.result) rounds db =
      some ((fun _ => lastRow b.result pieces) <$> o, db.after pieces.length content events)

section Loop

variable {b b' : BatchState} {db : Database C} {pieces : List (Piece C)} {o : Outcome Unit}
  {content content₁ : C}

theorem untilRounds_round (hfinished : b.isFinished = false) (limit rounds : Nat)
    (db : Database C) :
    (CallM.untilRounds BatchState.isFinished (batchBody host compile vars length) (limit + 1) b >>=
        fun b => pure b.result) rounds db =
      (batchBody host compile vars length b >>= fun b =>
        CallM.untilRounds BatchState.isFinished (batchBody host compile vars length) limit b >>=
          fun b => pure b.result) rounds db := by
  rw [CallM.untilRounds, if_neg (by simp [hfinished]), CallM.bind_assoc]

theorem LoopsTo.finished (hfinished : b.isFinished = true) :
    LoopsTo host compile vars length b db [] (.ok ()) db.content := by
  refine fun limit _ rounds => ⟨db.events, ?_⟩
  rw [CallM.untilRounds_finished hfinished, CallM.pure_bind]
  exact congrArg (fun db' => some (Outcome.ok b.result, db')) (Database.after_zero db).symm

/-- A round that returns. -/
theorem LoopsTo.round (hfinished : b.isFinished = false) {piece : Piece C}
    (hbody : ∀ rounds, ∃ events, batchBody host compile vars length b rounds db =
      some (.ok b', db.after 1 content₁ events))
    (hlast : lastRow b.result (piece :: pieces) = lastRow b'.result pieces)
    (hloops : ∀ events,
      LoopsTo host compile vars length b' (db.after 1 content₁ events) pieces o content) :
    LoopsTo host compile vars length b db (piece :: pieces) o content := by
  intro limit hlimit rounds
  obtain ⟨limit, rfl⟩ := Nat.exists_eq_succ_of_ne_zero (Nat.ne_zero_of_lt hlimit)
  obtain ⟨events₁, hbody⟩ := hbody rounds
  obtain ⟨events, hrun⟩ := hloops events₁ limit (Nat.lt_of_succ_lt_succ hlimit) rounds
  refine ⟨events, ?_⟩
  rw [Nat.succ_eq_add_one, untilRounds_round hfinished, CallM.bind_run_ok _ _ hbody, hrun, hlast,
    Database.after_after, List.length_cons, Nat.add_comm]

/-- A round that does not return. -/
theorem LoopsTo.exit (hfinished : b.isFinished = false) {α : Type} {answer : Outcome α}
    {f : α → BatchState} (hanswer : ¬ answer.Returns)
    (hbody : ∀ rounds, ∃ events, batchBody host compile vars length b rounds db =
      some (f <$> answer, db.after pieces.length content events)) :
    LoopsTo host compile vars length b db pieces ((fun _ => ()) <$> answer) content := by
  intro limit hlimit rounds
  obtain ⟨limit, rfl⟩ := Nat.exists_eq_succ_of_ne_zero (Nat.ne_zero_of_lt hlimit)
  obtain ⟨events, hbody⟩ := hbody rounds
  refine ⟨events, ?_⟩
  rw [Nat.succ_eq_add_one, untilRounds_round hfinished]
  cases answer with
  | ok a => exact absurd (Outcome.returns_ok a) hanswer
  | raise e => exact CallM.bind_run_raise _ hbody
  | jump tag => exact CallM.bind_run_jump _ hbody

end Loop

theorem Starts.dropWhile_eq {cs : List Char} (h : Starts cs) :
    (cs.dropWhile fun c => isSpace c.toNat) = cs := by
  obtain ⟨c, hc, hspace⟩ := h
  obtain ⟨rest, rfl⟩ := List.head?_eq_some_iff.mp hc
  exact List.dropWhile_cons_of_neg (by simp [hspace])

/-- The loop walks through the text that it is at. -/
theorem Walk.loops {cs : List Char} {content content' : C} {pieces : List (Piece C)}
    {o : Outcome Unit} (h : Walk host compile silent vars length cs content pieces o content')
    {b : BatchState} {db : Database C} (hopen : db.isOpen = true) (hcontent : db.content = content)
    (hholds : HoldsShort host b.sql (cs.dropWhile fun c => isSpace c.toNat)) :
    LoopsTo host compile vars length b db pieces o content' := by
  have hunfinished {b : BatchState} {cs : List Char} (hstarts : Starts cs)
      (hholds : HoldsShort host b.sql cs) : b.isFinished = false :=
    hholds.isFinished fun hnil => not_starts_nil (hnil ▸ hstarts)
  induction h generalizing b db with
  | finished =>
      subst hcontent
      exact .finished (List.isEmpty_iff.mpr (hholds.empty.mpr rfl))
  | space hspace _ ih =>
      rw [List.dropWhile_cons, if_pos hspace] at hholds
      exact ih hopen hcontent hholds
  | refused hstarts hfinds =>
      subst hcontent
      rw [hstarts.dropWhile_eq] at hholds
      obtain ⟨e, rfl⟩ := hfinds.refused_raises
      refine .exit (f := fun _ : Unit => b) (hunfinished hstarts hholds)
        (Outcome.not_returns_raise e) fun rounds => ⟨db.events, ?_⟩
      rw [batchBody_refused hopen hholds hfinds rounds]
      exact congrArg (fun db' => some (Outcome.raise e, db')) (Database.after_zero db).symm
  | silent hstarts hfinds _ ih =>
      subst hcontent
      rw [hstarts.dropWhile_eq] at hholds
      refine .round (hunfinished hstarts hholds)
        (fun rounds => ⟨_, batchBody_silent hopen hholds hfinds rounds⟩) rfl fun events => ?_
      exact ih hopen rfl (HoldsShort.rest (hfinds.1 ▸ hholds)).2
  | ran hstarts hfinds hstep _ ih =>
      subst hcontent
      rw [hstarts.dropWhile_eq] at hholds
      refine .round (hunfinished hstarts hholds) (batchBody_runs hopen hholds hfinds hstep)
        (lastRow_ran ..) fun events => ?_
      exact ih hopen rfl (HoldsShort.rest (hfinds.1 ▸ hholds)).2
  | stopped hstarts hfinds hstep hanswer =>
      subst hcontent
      rw [hstarts.dropWhile_eq] at hholds
      exact .exit (hunfinished hstarts hholds) hanswer (batchBody_runs hopen hholds hfinds hstep)

/-- There is a walk through every text. -/
theorem exists_walk (host : Host) (vars : BindVar) (length : Outcome Nat)
    (hconsumes : ConsumesPrefix silent compile) {cs : List Char}
    (hzero : '\x00' ∉ cs) (content : C) :
    ∃ pieces o content', Walk host compile silent vars length cs content pieces o content' := by
  induction hlength : cs.length using Nat.strong_induction_on generalizing cs content with
  | _ n ih =>
      subst hlength
      cases cs with
      | nil => exact ⟨[], .ok (), content, .finished⟩
      | cons c cs =>
          cases hspace : isSpace c.toNat with
          | true =>
              obtain ⟨pieces, o, content', hwalk⟩ :=
                ih cs.length (by simp) (fun hmem => hzero (by simp [hmem])) content rfl
              exact ⟨pieces, o, content', .space hspace hwalk⟩
          | false =>
              have hstarts : Starts (c :: cs) := ⟨c, rfl, hspace⟩
              -- what is left after a part that is not empty
              have hrest {head rest : List Char} (hcs : c :: cs = head ++ rest) (hhead : head ≠ [])
                  (content : C) : ∃ pieces o content',
                    Walk host compile silent vars length rest content pieces o content' := by
                refine ih rest.length ?_ (fun hmem => hzero (by simp [hcs, hmem])) content rfl
                have hpos := List.length_pos_iff.mpr hhead
                rw [hcs, List.length_append]
                omega
              cases hcompile : compile (Utf8.encode (c :: cs)) content with
              | error status errmsg =>
                  exact ⟨[], _, content, .refused hstarts ⟨status, errmsg, hcompile, rfl⟩⟩
              | noStatement tail =>
                  obtain ⟨head, rest, hcs, hhead, rfl, hsilent⟩ :=
                    hconsumes.noStatement hstarts hzero hcompile
                  obtain ⟨pieces, o, content', hwalk⟩ := hrest hcs hhead content
                  exact ⟨_, o, content', .silent hstarts ⟨hcs, hcompile, hsilent⟩ hwalk⟩
              | statement program tail =>
                  obtain ⟨head, rest, hcs, hhead, rfl, hsilent⟩ :=
                    hconsumes.statement hstarts hzero hcompile
                  have hfinds : Finds compile silent (c :: cs) content
                    (.statement head rest program) := ⟨hcs, hcompile, hsilent⟩
                  rcases hstep : firstStep host vars length program content with ⟨answer, content₁⟩
                  by_cases hanswer : answer.Returns
                  · obtain ⟨row, rfl⟩ := hanswer
                    obtain ⟨pieces, o, content', hwalk⟩ := hrest hcs hhead content₁
                    exact ⟨_, o, content', .ran hstarts hfinds hstep hwalk⟩
                  · exact ⟨_, _, content₁, .stopped hstarts hfinds hstep hanswer⟩

/-! ## `execute_batch` -/

/-- The string is this text. Where Ruby looks at the characters through its tables, what is
stripped off the string are the spaces of the text. -/
structure HasText (host : Host) (sql : RString) (cs : List Char) : Prop where
  valid : sql.isBroken = false
  encode : strEncodeUtf8 host sql = .ok (Utf8.encode cs)
  strips : ∀ index, sql.encoding = .other index → host.isDummy index = false →
    ∃ characters bytes, host.characters index sql.bytes = some characters ∧
      bytes = (stripSpaces Prod.fst characters).flatMap Prod.snd ∧
      host.transcode index bytes = some (stripSpaces Char.toNat cs) ∧
      (bytes = [] ↔ stripSpaces Char.toNat cs = [])

/-- The encoding is one that Ruby only knows by name. -/
def isDummyText (host : Host) (sql : RString) : Bool :=
  match sql.encoding with
  | .other index => host.isDummy index
  | _ => false

theorem strip_eq_nil_iff (cs : List Char) :
    stripSpaces UInt8.toNat (Utf8.encode cs) = [] ↔ stripSpaces Char.toNat cs = [] := by
  rw [strip_utf8, encode_eq_nil_iff]

/-- An ASCII text is stripped as its characters are. -/
theorem ascii_strip {klass : StringClass} {encoding : Encoding} {bytes : List UInt8}
    {cs : List Char}
    (h : (if bytes.all (· < 128) = true then Outcome.ok bytes
      else conversionError host ⟨klass, encoding, bytes⟩) = .ok (Utf8.encode cs)) :
    bytes = Utf8.encode cs ∧
      (if (stripSpaces UInt8.toNat bytes).all (· < 128) = true
        then Outcome.ok (stripSpaces UInt8.toNat bytes)
        else conversionError host ⟨klass, encoding, stripSpaces UInt8.toNat bytes⟩) =
          .ok (Utf8.encode (stripSpaces Char.toNat cs)) := by
  split at h
  · rename_i hall
    obtain rfl := Outcome.ok.inj h
    refine ⟨rfl, ?_⟩
    rw [List.all_eq_true] at hall
    rw [if_pos (List.all_eq_true.mpr fun b hb => hall b ((strip_sublist _ _).subset hb)), strip_utf8]
  · exact absurd h (conversionError_ne_ok _ _ _)

/-- A UTF-16 text is stripped as its characters are. -/
theorem utf16_strip (order : Utf16.ByteOrder) {bytes : List UInt8} {cs : List Char}
    (h : Utf16.decode (order.ofBytes bytes) = some cs) :
    order.toBytes (stripSpaces UInt16.toNat (order.ofBytes bytes)) =
      order.toBytes (Utf16.encode (stripSpaces Char.toNat cs)) := by
  rw [← Utf16.encode_decode h, strip_utf16]

theorem toBytes_encode_eq_nil_iff (order : Utf16.ByteOrder) (cs : List Char) :
    order.toBytes (Utf16.encode cs) = [] ↔ cs = [] := by
  have hbytes : order.toBytes [] = [] := rfl
  have hunits : Utf16.encode [] = [] := rfl
  rw [(Utf16.toBytes_injective order).eq_iff' hbytes, Utf16.encode_injective.eq_iff' hunits]

/-- The text of a script, stripped. -/
theorem holds_strip {sql : RString} {cs : List Char} (htext : HasText host sql cs)
    (hdummy : isDummyText host sql = false) (hzero : '\x00' ∉ cs) :
    ∃ s, sql.strip host = .ok s ∧ Holds host s (stripSpaces Char.toNat cs) := by
  have hholds {s : RString}
      (hencode : strEncodeUtf8 host s = .ok (Utf8.encode (stripSpaces Char.toNat cs)))
      (hempty : s.bytes = [] ↔ stripSpaces Char.toNat cs = []) :
      Holds host s (stripSpaces Char.toNat cs) :=
    ⟨hencode, hempty, strip_strip _ cs, fun hmem => hzero ((strip_sublist _ cs).subset hmem)⟩
  have hencode := htext.encode
  rw [RString.strip, htext.valid, if_neg Bool.false_ne_true]
  obtain ⟨klass, encoding, bytes⟩ := sql
  cases encoding with
  | utf8 =>
      obtain rfl : bytes = Utf8.encode cs := Outcome.ok.inj hencode
      exact ⟨_, rfl, hholds (congrArg Outcome.ok (strip_utf8 cs)) (strip_eq_nil_iff cs)⟩
  | usAscii =>
      obtain ⟨rfl, hstripped⟩ := ascii_strip hencode
      exact ⟨_, rfl, hholds hstripped (strip_eq_nil_iff cs)⟩
  | ascii8bit =>
      obtain ⟨rfl, hstripped⟩ := ascii_strip hencode
      exact ⟨_, rfl, hholds hstripped (strip_eq_nil_iff cs)⟩
  | utf16 order =>
      rw [strEncodeUtf8] at hencode
      cases hdecode : Utf16.decode (order.ofBytes bytes) with
      | none =>
          simp only [hdecode] at hencode
          exact absurd hencode (conversionError_ne_ok _ _ _)
      | some ds =>
          simp only [hdecode] at hencode
          obtain rfl := Utf8.encode_injective (Outcome.ok.inj hencode)
          have hstrips := utf16_strip order hdecode
          refine ⟨_, rfl, hholds ?_ ?_⟩
          · rw [strEncodeUtf8]
            simp only [hstrips, Utf16.ofBytes_toBytes, Utf16.decode_encode]
          · change order.toBytes (stripSpaces UInt16.toNat (order.ofBytes bytes)) = [] ↔ _
            rw [hstrips, toBytes_encode_eq_nil_iff]
  | other index =>
      have hdummy : host.isDummy index = false := hdummy
      obtain ⟨characters, stripped, hcharacters, rfl, htranscode, hempty⟩ :=
        htext.strips index rfl hdummy
      have hcharacters : host.characters index bytes = some characters := hcharacters
      simp only [hdummy, Bool.false_eq_true, if_false, hcharacters]
      refine ⟨_, rfl, hholds ?_ hempty⟩
      rw [strEncodeUtf8]
      simp only [htranscode]

/-- Ruby does not strip a text of which it knows no characters. -/
theorem strip_dummy {sql : RString} (hvalid : sql.isBroken = false)
    (hdummy : isDummyText host sql = true) :
    ∃ message, sql.strip host = .raise ⟨.CompatibilityError, message⟩ := by
  rw [RString.strip, hvalid, if_neg Bool.false_ne_true]
  unfold isDummyText at hdummy
  split at hdummy
  · rename_i index hencoding
    simp only [hencoding, hdummy, if_true]
    exact ⟨_, rfl⟩
  · cases hdummy

theorem inked_strip (cs : List Char) : inked (stripSpaces Char.toNat cs) = inked cs := by
  have hdrop (l : List Char) : inked (l.dropWhile fun c => isSpace c.toNat) = inked l := by
    induction l with
    | nil => rfl
    | cons c l ih =>
        rw [List.dropWhile_cons]
        split
        · rename_i hspace
          rw [ih, inked, inked, List.filter_cons_of_neg (by simp [hspace])]
        · rfl
  have hreverse (l : List Char) : inked l.reverse = (inked l).reverse := List.filter_reverse
  rw [stripSpaces, List.rdropWhile, hreverse, hdrop, hreverse, List.reverse_reverse, hdrop]

/-! ## Texts whose length an `int` takes for none -/

section Wrapped

variable {b : BatchState} {db : Database C} {cs : List Char}

theorem sqlRead_wrapped {text : List UInt8} (h : text.length % 2 ^ 32 = 0) : sqlRead text = [] := by
  have hlength : cInt text.length = 0 := by
    rcases cInt_cases text.length with ⟨-, heq⟩ | ⟨hhigh, -⟩
    · rw [heq, h]
      rfl
    · rw [h] at hhigh
      omega
  rw [sqlRead, hlength]
  rfl

theorem sqlUnread_wrapped {text : List UInt8} (h : text.length % 2 ^ 32 = 0) (hzero : 0 ∉ text) :
    sqlUnread text = text := by
  rw [sqlUnread, sqlRead_wrapped h, cString_eq_self hzero]
  rfl

/-- SQLite finds nothing, and the whole text remains. -/
theorem batchBody_again (hempty : ∀ content, compile [] content = .noStatement [])
    (hopen : db.isOpen = true) (hholds : Holds host b.sql cs)
    (hlength : (Utf8.encode cs).length % 2 ^ 32 = 0) (rounds : Nat) :
    batchBody host compile vars length b rounds db =
      some (.ok ⟨utf8String (Utf8.encode cs), b.result⟩, db.after 1 db.content db.events) := by
  have hzero : 0 ∉ Utf8.encode cs := Utf8.zero_not_mem_encode hholds.zero_not_mem
  have hcompile : compile (sqlRead (Utf8.encode cs)) db.content = .noStatement [] := by
    rw [sqlRead_wrapped hlength]
    exact hempty db.content
  have hprepare := prepare_noStatement rounds hopen hholds.encode hcompile
  rw [sqlUnread_wrapped hlength hzero, List.nil_append] at hprepare
  have hclosed : batchStep host vars length ⟨db.statements.length, Utf8.encode cs⟩ b.result rounds
      (db.push none) = some (.ok b.result, db.push none) := by
    rw [batchStep, CallM.get_bind, Database.statement_push, if_pos (by simp)]
    rfl
  rw [← Database.without_push]
  refine prepareBlock_run rounds hprepare ?_
  rw [CallM.bind_run_ok b.result _ hclosed, strip_utf8String host ⟨cs, rfl⟩, strip_utf8,
    hholds.stripped]
  rfl

theorem untilRounds_never (hempty : ∀ content, compile [] content = .noStatement [])
    (hopen : db.isOpen = true) (hholds : Holds host b.sql cs) (hne : cs ≠ [])
    (hlength : (Utf8.encode cs).length % 2 ^ 32 = 0) (limit rounds : Nat) :
    CallM.untilRounds BatchState.isFinished (batchBody host compile vars length) limit b rounds db =
      none := by
  have hunfinished : ¬ b.isFinished = true := by simp [hholds.isFinished hne]
  induction limit generalizing b db with
  | zero =>
      rw [CallM.untilRounds, if_neg hunfinished]
      rfl
  | succ limit ih =>
      let b' : BatchState := ⟨utf8String (Utf8.encode cs), b.result⟩
      have hagain : Holds host b'.sql cs :=
        ⟨rfl, encode_eq_nil_iff cs, hholds.stripped, hholds.zero_not_mem⟩
      rw [CallM.untilRounds, if_neg hunfinished,
        CallM.bind_run_ok _ _ (batchBody_again hempty hopen hholds hlength rounds)]
      exact ih (b := b') hopen hagain (by simp [hagain.isFinished hne])

theorem executeBatch_never (hempty : ∀ content, compile [] content = .noStatement [])
    (hopen : db.isOpen = true) {sql s : RString} (hstrip : sql.strip host = .ok s)
    (hholds : Holds host s cs) (hne : cs ≠ []) (hlength : (Utf8.encode cs).length % 2 ^ 32 = 0)
    (rounds : Nat) : executeBatch host compile sql vars length rounds db = none := by
  have hloop : CallM.loopUntil BatchState.isFinished (batchBody host compile vars length) ⟨s, none⟩
      rounds db = none :=
    untilRounds_never (b := ⟨s, none⟩) hempty hopen hholds hne hlength rounds rounds
  rw [executeBatch, hstrip, CallM.lift_ok_bind, CallM.bind_run, hloop]

end Wrapped

/-- `execute_batch` walks through the whole of a script that is short enough for an `int`, and
returns the row of the last statement that it runs. It goes round for ever in one of
`2 ^ 32` bytes, and does not begin with one that Ruby cannot strip. -/
theorem executeBatch_walks (host : Host) (compile : List UInt8 → C → Compiled C)
    (silent : List Char → Prop) (vars : BindVar) (length : Outcome Nat)
    (hconsumes : ConsumesPrefix silent compile)
    (hempty : ∀ content, compile [] content = .noStatement []) {sql : RString} {cs : List Char}
    (htext : HasText host sql cs) (hzero : '\x00' ∉ cs) {db : Database C}
    (hopen : db.isOpen = true) :
    (isDummyText host sql = false → (Utf8.encode (stripSpaces Char.toNat cs)).length < 2 ^ 32 →
      ∃ pieces o content,
        Walk host compile silent vars length (stripSpaces Char.toNat cs) db.content pieces o
          content ∧
        Covers pieces cs o ∧
        ∀ rounds, pieces.length < rounds → ∃ events,
          executeBatch host compile sql vars length rounds db =
            some ((fun _ => lastRow none pieces) <$> o,
              db.after pieces.length content events)) ∧
      (isDummyText host sql = false → stripSpaces Char.toNat cs ≠ [] →
        (Utf8.encode (stripSpaces Char.toNat cs)).length % 2 ^ 32 = 0 →
          ∀ rounds, executeBatch host compile sql vars length rounds db = none) ∧
      (isDummyText host sql = true → ∃ message, ∀ rounds,
        executeBatch host compile sql vars length rounds db =
          some (.raise ⟨.CompatibilityError, message⟩, db)) := by
  refine ⟨fun hdummy hshort => ?_, fun hdummy hne hlength rounds => ?_, fun hdummy => ?_⟩
  · obtain ⟨s, hstrip, hholds⟩ := holds_strip htext hdummy hzero
    obtain ⟨pieces, o, content, hwalk⟩ :=
      exists_walk host vars length hconsumes hholds.zero_not_mem db.content
    refine ⟨pieces, o, content, hwalk, ?_, fun rounds hrounds => ?_⟩
    · have hcovers := hwalk.covers
      rwa [Covers, inked_strip] at hcovers
    · have hstarts : ((stripSpaces Char.toNat cs).dropWhile fun c => isSpace c.toNat) =
          stripSpaces Char.toNat cs := by
        by_cases hnil : stripSpaces Char.toNat cs = []
        · rw [hnil]
          rfl
        · exact (hholds.starts hnil).dropWhile_eq
      have hholdsShort : HoldsShort host s (stripSpaces Char.toNat cs) := ⟨hholds, hshort⟩
      have hloops := hwalk.loops (b := ⟨s, none⟩) hopen rfl (hstarts.symm ▸ hholdsShort)
      rw [executeBatch, hstrip, CallM.lift_ok_bind]
      exact hloops rounds hrounds rounds
  · obtain ⟨s, hstrip, hholds⟩ := holds_strip htext hdummy hzero
    exact executeBatch_never hempty hopen hstrip hholds hne hlength rounds
  · obtain ⟨message, hstrip⟩ := strip_dummy htext.valid hdummy
    refine ⟨message, fun rounds => ?_⟩
    rw [executeBatch, hstrip]
    rfl

/-- SQLite for scripts of one statement and semicolons. -/
def cutsAtSemicolons (program : Program C) (text : List UInt8) (_ : C) : Compiled C :=
  if text.head?.all (· = 59) then .noStatement text.tail
  else .statement program (text.dropWhile (· ≠ 59)).tail

theorem cutsAtSemicolons_consumes (program : Program C) :
    ConsumesPrefix (fun head => head.head? = some ';') (cutsAtSemicolons program) := by
  have hsemicolon (c : Char) : ∀ b ∈ String.utf8EncodeChar c, b = 59 ↔ c = ';' := by
    intro b hb
    constructor
    · rintro rfl
      exact (Utf8.mem_encodeChar_iff rfl (by decide)).mp hb
    · rintro rfl
      exact List.mem_singleton.mp hb
  have hhead {cs : List Char} (hstarts : Starts cs) :
      (Utf8.encode cs).head?.all (· = 59) = true ↔ cs.head? = some ';' := by
    obtain ⟨c, hc, -⟩ := hstarts
    obtain ⟨rest, rfl⟩ := List.head?_eq_some_iff.mp hc
    obtain ⟨b, bytes, hb⟩ := List.exists_cons_of_ne_nil (String.utf8EncodeChar_ne_nil (c := c))
    have hencode : Utf8.encode (c :: rest) = b :: (bytes ++ Utf8.encode rest) := by
      rw [Utf8.encode, List.flatMap_cons, hb]
      rfl
    rw [hencode, List.head?_cons, List.head?_cons, Option.all_some, decide_eq_true_iff,
      Option.some_inj]
    exact hsemicolon c b (by simp [hb])
  constructor
  · intro cs content program' tail hstarts _ hcompile
    rw [cutsAtSemicolons] at hcompile
    split at hcompile
    · cases hcompile
    · rename_i hnot
      obtain ⟨-, rfl⟩ := Compiled.statement.inj hcompile
      have hdrop : (Utf8.encode cs).dropWhile (· ≠ 59) = Utf8.encode (cs.dropWhile (· ≠ ';')) :=
        dropWhile_flatMap (fun _ => String.utf8EncodeChar_ne_nil)
          (fun c b hb => by simp [hsemicolon c b hb]) cs
      obtain ⟨c, hc, hspace⟩ := hstarts
      have hne : c ≠ ';' := fun h => hnot ((hhead ⟨c, hc, hspace⟩).mpr (h ▸ hc))
      obtain ⟨rest, rfl⟩ := List.head?_eq_some_iff.mp hc
      have hfirst : (c :: rest).takeWhile (· ≠ ';') = c :: rest.takeWhile (· ≠ ';') :=
        List.takeWhile_cons_of_pos (by simpa using hne)
      have hsplit := List.takeWhile_append_dropWhile (p := (· ≠ ';')) (l := c :: rest)
      rw [hdrop]
      cases hd : (c :: rest).dropWhile (· ≠ ';') with
      | nil =>
          rw [hd, List.append_nil] at hsplit
          exact ⟨c :: rest, [], (List.append_nil _).symm, by simp, rfl, by simpa using hne⟩
      | cons d after =>
          have hlast := List.head?_dropWhile_not (· ≠ ';') (c :: rest)
          rw [hd] at hlast
          obtain rfl : d = ';' := by simpa using hlast
          rw [hd, hfirst] at hsplit
          refine ⟨c :: rest.takeWhile (· ≠ ';') ++ [';'], after, ?_, by simp, rfl, by simpa using hne⟩
          rw [List.append_assoc]
          exact hsplit.symm
  · intro cs content tail hstarts _ hcompile
    rw [cutsAtSemicolons] at hcompile
    split at hcompile
    · rename_i hhead'
      obtain rfl := Compiled.noStatement.inj hcompile
      obtain ⟨rest, rfl⟩ := List.head?_eq_some_iff.mp ((hhead hstarts).mp hhead')
      exact ⟨[';'], rest, rfl, by simp, rfl, rfl⟩
    · cases hcompile

/-- `"i;i; ;"`, and a space. -/
def twoInserts : List Char := ['i', ';', 'i', ';', ' ', ';', ' ']

theorem utf8_hasText (host : Host) (cs : List Char) :
    HasText host (utf8String (Utf8.encode cs)) cs where
  valid := by
    rw [RString.isBroken, utf8String]
    exact congrArg not ((Utf8.validateUTF8_iff _).mpr ⟨cs, rfl⟩)
  encode := rfl
  strips _ hencoding := by cases hencoding

theorem twoInserts_walk :
    ∃ pieces o content,
      Walk Statement.littleHost (cutsAtSemicolons Statement.insertProgram)
        (fun head => head.head? = some ';') (.array []) (.ok 0)
        (stripSpaces Char.toNat twoInserts) 0 pieces o content ∧
      Covers pieces twoInserts o ∧
      ∀ rounds, pieces.length < rounds → ∃ events,
        executeBatch Statement.littleHost (cutsAtSemicolons Statement.insertProgram)
            (utf8String (Utf8.encode twoInserts)) (.array []) (.ok 0) rounds (newDatabase 0) =
          some ((fun _ => lastRow none pieces) <$> o,
            (newDatabase 0).after pieces.length content events) :=
  (executeBatch_walks Statement.littleHost (cutsAtSemicolons Statement.insertProgram) _ (.array [])
    (.ok 0) (cutsAtSemicolons_consumes _) (fun _ => rfl) (utf8_hasText _ twoInserts) (by decide)
    (show (newDatabase 0).isOpen = true from rfl)).1 rfl (by decide)

theorem length_encode_semicolons (n : Nat) :
    (Utf8.encode (List.replicate n ';')).length = n := by
  have hchar : String.utf8EncodeChar ';' = [59] := by decide
  rw [Utf8.encode, List.length_flatMap, List.map_replicate, hchar, List.sum_replicate_nat]
  exact Nat.mul_one n

theorem semicolons_hold (host : Host) (n : Nat) :
    Holds host (utf8String (Utf8.encode (List.replicate n ';'))) (List.replicate n ';') := by
  have hspace : ¬ isSpace ';'.toNat = true := by decide
  refine ⟨rfl, encode_eq_nil_iff _, ?_, fun hmem => ?_⟩
  · have hdrop : ((List.replicate n ';').dropWhile fun c => isSpace c.toNat) =
        List.replicate n ';' := by
      rw [List.dropWhile_replicate]
      exact if_neg hspace
    rw [stripSpaces, hdrop, List.rdropWhile, List.reverse_replicate, hdrop, List.reverse_replicate]
  · exact absurd (List.eq_of_mem_replicate hmem) (by decide)

/-- `2 ^ 32` semicolons are no text to SQLite, and remain. -/
theorem semicolons_never_end :
    ¬ ∃ rounds, (executeBatch Statement.littleHost (cutsAtSemicolons Statement.insertProgram)
      (utf8String (Utf8.encode (List.replicate (2 ^ 32) ';'))) (.array []) (.ok 0) rounds
      (newDatabase 0)).isSome = true := by
  rintro ⟨rounds, hsome⟩
  have hholds := semicolons_hold Statement.littleHost (2 ^ 32)
  have hstrip : (utf8String (Utf8.encode (List.replicate (2 ^ 32) ';'))).strip Statement.littleHost =
      .ok (utf8String (Utf8.encode (List.replicate (2 ^ 32) ';'))) := by
    rw [strip_utf8String _ ⟨_, rfl⟩, strip_utf8, hholds.stripped]
  have hlength : (Utf8.encode (List.replicate (2 ^ 32) ';')).length % 2 ^ 32 = 0 := by
    rw [length_encode_semicolons]
    exact Nat.mod_self _
  have hne : List.replicate (2 ^ 32) ';' ≠ [] := by
    intro hnil
    have hlength := congrArg List.length hnil
    rw [List.length_replicate] at hlength
    exact absurd hlength (by decide)
  rw [executeBatch_never (fun _ => rfl) rfl hstrip hholds hne hlength rounds] at hsome
  cases hsome

example : (executeBatch Statement.littleHost (cutsAtSemicolons Statement.insertProgram)
    (utf8String (Utf8.encode twoInserts)) (.array []) (.ok 0) 4 (newDatabase 0)).map
      (fun r => (r.2.content, r.2.statements.length)) = some (2, 3) := rfl

end Sqlite3Ruby.Query
