import Sqlite3Ruby.Parameters
import Sqlite3Ruby.QueryRows

/-!
# Positional and named placeholders

SQLite numbers the parameters of a statement as they appear: a `?` takes the number
after the largest so far, and so does a name that is new. `bind_params` binds the
positional values to `1`, `2` and so on, whatever stands there.
-/

namespace Sqlite3Ruby.Statement

variable {C : Type}

/-- A placeholder in the text of a statement; a name has its colon. -/
inductive Placeholder
  | anonymous
  | named (name : List UInt8)
  deriving DecidableEq

/-- The numbers of the placeholders so far. -/
structure Numbering where
  largest : Nat
  occurrences : List (Placeholder × Nat)

namespace Numbering

/-- The number of the next placeholder. A name that is repeated keeps its number. -/
def index (n : Numbering) : Placeholder → Nat
  | .anonymous => n.largest + 1
  | .named name => (n.occurrences.lookup (.named name)).getD (n.largest + 1)

def add (n : Numbering) (p : Placeholder) : Numbering where
  largest := max n.largest (n.index p)
  occurrences := n.occurrences ++ [(p, n.index p)]

/-- The numbers of the anonymous placeholders. -/
def anonymous (n : Numbering) : List Nat :=
  n.occurrences.filterMap fun o => if o.1 = .anonymous then some o.2 else none

end Numbering

def numbering (ps : List Placeholder) : Numbering := ps.foldl Numbering.add ⟨0, []⟩

/-- What SQLite makes of a text with these placeholders. -/
structure Numbered (ps : List Placeholder) (program : Program C) : Prop where
  count : program.parameterCount = (numbering ps).largest
  index : ∀ name, program.parameterIndex name =
    ((numbering ps).occurrences.lookup (.named name)).getD 0

/-- The name that SQLite is asked for with a key. -/
def fullName : ParamKey → Option (List UInt8)
  | .symbol name | .value (.string ⟨_, _, name⟩) =>
      some ((if name.head? = some 58 then name else 58 :: name).takeWhile (· ≠ 0))
  | .value _ => none

/-- The hash has one entry for each name. -/
structure NamesAll (ps : List Placeholder) (entries : List (ParamKey × Value)) : Prop where
  nodup : (entries.map fun entry => fullName entry.1).Nodup
  mem : ∀ name, some name ∈ entries.map (fun entry => fullName entry.1) ↔ .named name ∈ ps
  names : ∀ entry ∈ entries, ∃ name, fullName entry.1 = some name

/-- A call with bind variables. -/
inductive BindCall
  | bindParams
  | execute

def BindCall.run (host : Host) (vars : List BindVar) : BindCall → StatementM C Unit
  | bindParams => Statement.bindParams host vars
  | execute => Statement.execute host vars

/-- The arguments `v1, ..., vk, {name => value, ...}`. -/
def mixedVars (values : List Value) (entries : List (ParamKey × Value)) : List BindVar :=
  values.map .value ++ [.hash entries]

/-- The i-th anonymous placeholder is bound to the i-th value, and each name to its own. -/
structure EachBound (host : Host) (ps : List Placeholder) (values : List Value)
    (entries : List (ParamKey × Value)) (bindings : Bindings) : Prop where
  anonymous : List.Forall₂ (fun index v => Sqlite3Ruby.bindParam host v = .ok (bindings index))
    (numbering ps).anonymous values
  named : ∀ name index, (Placeholder.named name, index) ∈ (numbering ps).occurrences →
    ∃ entry ∈ entries, fullName entry.1 = some name ∧
      Sqlite3Ruby.bindParam host entry.2 = .ok (bindings index)

/-- What comes to the anonymous placeholder of this number is what is meant for it: the
value at that position, or what was bound before if there are fewer values. -/
def Fits (host : Host) (values : List Value) (bindings : Bindings) (index : Nat) (v : Value) :
    Prop :=
  Sqlite3Ruby.bindParam host v =
    match values[index - 1]? with
    | some w => Sqlite3Ruby.bindParam host w
    | none => .ok (bindings index)

/-! ## The numbers -/

/-- Placeholders with one number are the same, and so are the numbers of a name. -/
structure Numbering.WellNumbered (n : Numbering) : Prop where
  pos : ∀ o ∈ n.occurrences, 1 ≤ o.2
  le : ∀ o ∈ n.occurrences, o.2 ≤ n.largest
  shared : ∀ o ∈ n.occurrences, ∀ o' ∈ n.occurrences, o.2 = o'.2 → o.1 = o'.1
  named : ∀ name i, (.named name, i) ∈ n.occurrences →
    n.occurrences.lookup (.named name) = some i

namespace Numbering

variable {n : Numbering}

/-- The next number is new, or the name has been seen with it. -/
theorem index_cases (n : Numbering) (p : Placeholder) :
    (n.index p = n.largest + 1 ∧ ∀ name, p = .named name → n.occurrences.lookup p = none) ∨
      (p, n.index p) ∈ n.occurrences ∧ n.occurrences.lookup p = some (n.index p) := by
  cases p with
  | anonymous => exact Or.inl ⟨rfl, by simp⟩
  | named name =>
      cases hlookup : n.occurrences.lookup (.named name) with
      | none => exact Or.inl ⟨by simp [index, hlookup], fun _ _ => rfl⟩
      | some i =>
          have hindex : n.index (.named name) = i := by simp [index, hlookup]
          obtain ⟨before, after, hsplit, -⟩ := List.lookup_eq_some_iff.mp hlookup
          refine Or.inr ⟨?_, by rw [hindex]⟩
          rw [hindex, hsplit]
          simp

theorem WellNumbered.add (h : n.WellNumbered) (p : Placeholder) : (n.add p).WellNumbered := by
  have hmem (o : Placeholder × Nat) :
      o ∈ (n.add p).occurrences ↔ o ∈ n.occurrences ∨ o = (p, n.index p) := by
    simp [Numbering.add]
  have hlookup (q : Placeholder) : (n.add p).occurrences.lookup q =
      (n.occurrences.lookup q).or (if q = p then some (n.index p) else none) := by
    rw [Numbering.add, List.lookup_append, List.lookup_cons, List.lookup_nil]
    by_cases hq : q = p
    · simp [hq]
    · rw [beq_false_of_ne hq, if_neg hq]
  rcases n.index_cases p with ⟨hindex, hnone⟩ | ⟨hknown, hsome⟩
  · constructor
    · intro o ho
      rcases (hmem o).mp ho with ho | rfl
      · exact h.pos o ho
      · simp [hindex]
    · intro o ho
      rcases (hmem o).mp ho with ho | rfl
      · exact le_trans (h.le o ho) (le_max_left _ _)
      · exact le_max_right _ _
    · intro o ho o' ho' heq
      rcases (hmem o).mp ho with ho | rfl <;> rcases (hmem o').mp ho' with ho' | rfl
      · exact h.shared o ho o' ho' heq
      · have hle := h.le o ho
        simp only [hindex] at heq
        omega
      · have hle := h.le o' ho'
        simp only [hindex] at heq
        omega
      · rfl
    · intro name i hi
      rw [hlookup]
      rcases (hmem _).mp hi with hi | hi
      · rw [h.named name i hi, Option.some_or]
      · obtain ⟨rfl, rfl⟩ := Prod.mk.inj hi
        rw [hnone name rfl, if_pos rfl, Option.none_or]
  · have hsame (o : Placeholder × Nat) : o ∈ (n.add p).occurrences ↔ o ∈ n.occurrences := by
      rw [hmem]
      exact or_iff_left_of_imp fun heq => heq ▸ hknown
    constructor
    · exact fun o ho => h.pos o ((hsame o).mp ho)
    · exact fun o ho => le_trans (h.le o ((hsame o).mp ho)) (le_max_left _ _)
    · exact fun o ho o' ho' => h.shared o ((hsame o).mp ho) o' ((hsame o').mp ho')
    · intro name i hi
      rw [hlookup, h.named name i ((hsame _).mp hi), Option.some_or]

end Numbering

theorem numbering_wellNumbered (ps : List Placeholder) : (numbering ps).WellNumbered := by
  induction ps using List.reverseRecOn with
  | nil => constructor <;> simp [numbering]
  | append_singleton ps p ih =>
      rw [numbering, List.foldl_append]
      exact ih.add p

theorem mem_occurrences_iff (ps : List Placeholder) (p : Placeholder) :
    (∃ i, (p, i) ∈ (numbering ps).occurrences) ↔ p ∈ ps := by
  induction ps using List.reverseRecOn with
  | nil => simp [numbering]
  | append_singleton ps q ih =>
      rw [numbering, List.foldl_append]
      change (∃ i, (p, i) ∈ (numbering ps).occurrences ++ [(q, (numbering ps).index q)]) ↔ _
      simp only [List.mem_append, List.mem_singleton, exists_or, ih]
      simp

/-! ## What each call writes -/

section Calls

variable {host : Host} {program : Program C}

/-- The calls of `bind_param` for positional values. -/
def positional (index : Int) : List Value → List (ParamKey × Value)
  | [] => []
  | v :: values => (.value (.integer index), v) :: positional (index + 1) values

theorem assignments_mixed (index : Int) (values : List Value)
    (entries : List (ParamKey × Value)) :
    assignments index (flattenAll (mixedVars values entries)) =
      positional index values ++ entries := by
  induction values generalizing index with
  | nil => simp [mixedVars, flattenAll, BindVar.flatten, assignments, positional]
  | cons v values ih =>
      have hrest := ih (index + 1)
      rw [mixedVars] at hrest ⊢
      rw [List.map_cons, List.cons_append, flattenAll, BindVar.flatten, List.singleton_append,
        assignments, hrest, positional, List.cons_append]

/-- Positional values write the parameters one after the other. -/
theorem writes_positional {n : Nat} {values : List Value} {writes : List (Nat × Stored)}
    (h : List.Forall₂ (Writes host program) (positional n values) writes) :
    writes.map (·.1) = List.range' n values.length ∧
      List.Forall₂ (fun v write => Sqlite3Ruby.bindParam host v = .ok write.2) values writes := by
  induction values generalizing n writes with
  | nil =>
      cases h
      exact ⟨rfl, .nil⟩
  | cons v values ih =>
      cases h with
      | @cons _ write _ writes hwrite hwrites =>
          obtain ⟨hindices, hstored⟩ := ih (n := n + 1) (by exact_mod_cast hwrites)
          have hindex : (write.1 : Int) = n := checkInt_eq_ok hwrite.index
          refine ⟨?_, .cons hwrite.stored hstored⟩
          rw [List.map_cons, hindices, List.length_cons, List.range'_succ]
          exact congrArg (· :: _) (by exact_mod_cast hindex)

theorem index_of_fullName {key : ParamKey} {name : List UInt8} (h : fullName key = some name) :
    key.index program = .ok (program.parameterIndex name : Int) := by
  cases key with
  | symbol s =>
      obtain rfl := Option.some.inj h
      rfl
  | value v =>
      cases v with
      | string s =>
          obtain rfl := Option.some.inj h
          rfl
      | _ => cases h

/-- The entries of the hash write the parameters of their names. -/
theorem writes_named {ps : List Placeholder} (hnumbered : Numbered ps program)
    {entries : List (ParamKey × Value)} (hnames : NamesAll ps entries)
    {writes : List (Nat × Stored)} (h : List.Forall₂ (Writes host program) entries writes) :
    List.Forall₂ (fun entry write => ∃ name, fullName entry.1 = some name ∧
      (.named name, write.1) ∈ (numbering ps).occurrences ∧
      Sqlite3Ruby.bindParam host entry.2 = .ok write.2) entries writes := by
  have hknown (entry : ParamKey × Value) (hentry : entry ∈ entries) :
      ∃ name i, fullName entry.1 = some name ∧ (.named name, i) ∈ (numbering ps).occurrences := by
    obtain ⟨name, hname⟩ := hnames.names entry hentry
    have hmem := (hnames.mem name).mp (List.mem_map.mpr ⟨entry, hentry, hname⟩)
    obtain ⟨i, hi⟩ := (mem_occurrences_iff ps _).mpr hmem
    exact ⟨name, i, hname, hi⟩
  refine ((List.forall₂_and_left _ _).mpr ⟨hknown, h⟩).imp ?_
  rintro entry write ⟨⟨name, i, hname, hi⟩, hwrite⟩
  have hindex := hwrite.index
  rw [index_of_fullName hname, hnumbered.index, (numbering_wellNumbered ps).named name i hi] at hindex
  obtain rfl : i = write.1 := by exact_mod_cast Outcome.ok.inj hindex
  exact ⟨name, hname, hi, hwrite.stored⟩

end Calls

/-! ## What is bound afterwards -/

section Bound

variable {host : Host} {program : Program C} {ps : List Placeholder} {values : List Value}
  {entries : List (ParamKey × Value)} {bindings : Bindings}
  {positionals nameds : List (Nat × Stored)}

theorem mem_anonymous_iff (ps : List Placeholder) (index : Nat) :
    index ∈ (numbering ps).anonymous ↔ (.anonymous, index) ∈ (numbering ps).occurrences := by
  simp only [Numbering.anonymous, List.mem_filterMap]
  constructor
  · rintro ⟨⟨p, i⟩, ho, hi⟩
    split at hi
    · rename_i hp
      obtain rfl := Option.some.inj hi
      exact hp ▸ ho
    · cases hi
  · exact fun ho => ⟨_, ho, if_pos rfl⟩

/-- What an anonymous placeholder holds: no name has written it. -/
theorem bound_anonymous
    (hpositionals : positionals.map (·.1) = List.range' 1 values.length)
    (hvalues : List.Forall₂ (fun v write => Sqlite3Ruby.bindParam host v = .ok write.2) values
      positionals)
    (hnameds : ∀ write ∈ nameds, ∃ name, (.named name, write.1) ∈ (numbering ps).occurrences)
    {index : Nat} (hindex : index ∈ (numbering ps).anonymous) (v : Value) :
    Sqlite3Ruby.bindParam host v = .ok (Bindings.write bindings (positionals ++ nameds) index) ↔
      Fits host values bindings index v := by
  have hwell := numbering_wellNumbered ps
  have hocc := (mem_anonymous_iff ps index).mp hindex
  have hnamed : index ∉ nameds.map (·.1) := by
    intro hmem
    obtain ⟨write, hwrite, rfl⟩ := List.mem_map.mp hmem
    obtain ⟨name, hname⟩ := hnameds write hwrite
    exact absurd (hwell.shared _ hocc _ hname rfl) (by simp)
  rw [write_append, write_of_not_mem hnamed, Fits]
  cases hvalue : values[index - 1]? with
  | none =>
      have hle : values.length ≤ index - 1 := List.getElem?_eq_none_iff.mp hvalue
      have hpos := hwell.pos _ hocc
      have hpositional : index ∉ positionals.map (·.1) := by
        rw [hpositionals, List.mem_range'_1]
        omega
      rw [write_of_not_mem hpositional]
  | some w =>
      obtain ⟨hlt, hget⟩ := List.getElem?_eq_some_iff.mp hvalue
      have hpos := hwell.pos _ hocc
      obtain ⟨write, hwrite⟩ : ∃ write, positionals[index - 1]? = some write :=
        ⟨_, List.getElem?_eq_getElem (hvalues.length_eq ▸ hlt)⟩
      have hstored : Sqlite3Ruby.bindParam host w = .ok write.2 := by
        have hzip : (w, write) ∈ values.zip positionals :=
          List.mem_of_getElem? (List.getElem?_zip_eq_some.mpr ⟨hvalue, hwrite⟩)
        exact List.forall₂_zip hvalues hzip
      have hfirst : write.1 = index := by
        have hat : (positionals.map (·.1))[index - 1]? = some (1 + 1 * (index - 1)) := by
          rw [hpositionals, List.getElem?_range' hlt]
        rw [List.getElem?_map, hwrite] at hat
        have heq := Option.some.inj hat
        change write.1 = _ at heq
        omega
      have hmem : (index, write.2) ∈ positionals := hfirst ▸ List.mem_of_getElem? hwrite
      have hnodup : (positionals.map (·.1)).Nodup := hpositionals ▸ List.nodup_range'
      rw [write_of_mem hnodup hmem, ← hstored]

theorem exists_left_of_forall₂ {α β : Type} {R : α → β → Prop} {l : List α} {l' : List β}
    (h : List.Forall₂ R l l') {b : β} (hb : b ∈ l') : ∃ a ∈ l, R a b := by
  obtain ⟨n, rfl⟩ := List.mem_iff_get.mp hb
  have hn : n.1 < l.length := lt_of_lt_of_eq n.2 h.length_eq.symm
  exact ⟨l.get ⟨n, hn⟩, List.get_mem _ _, h.get hn n.2⟩

/-- No two entries of the hash write the same parameter. -/
theorem nodup_nameds
    (hentries : List.Forall₂ (fun entry write => ∃ name, fullName entry.1 = some name ∧
      (.named name, write.1) ∈ (numbering ps).occurrences ∧
      Sqlite3Ruby.bindParam host entry.2 = .ok write.2) entries nameds)
    (hnodup : (entries.map fun entry => fullName entry.1).Nodup) :
    (nameds.map (·.1)).Nodup := by
  induction hentries with
  | nil => exact List.nodup_nil
  | @cons entry write entries nameds hentry hentries ih =>
      rw [List.map_cons, List.nodup_cons] at hnodup ⊢
      refine ⟨fun hmem => hnodup.1 ?_, ih hnodup.2⟩
      obtain ⟨write', hwrite', hsame⟩ := List.mem_map.mp hmem
      obtain ⟨entry', hentry', name', hname', hocc', -⟩ := exists_left_of_forall₂ hentries hwrite'
      obtain ⟨name, hname, hocc, -⟩ := hentry
      have hshared := (numbering_wellNumbered ps).shared _ hocc' _ hocc hsame
      obtain rfl : name' = name := Placeholder.named.inj hshared
      exact List.mem_map.mpr ⟨entry', hentry', hname'.trans hname.symm⟩

/-- Each name holds its own value. -/
theorem bound_named (hnames : NamesAll ps entries)
    (hentries : List.Forall₂ (fun entry write => ∃ name, fullName entry.1 = some name ∧
      (.named name, write.1) ∈ (numbering ps).occurrences ∧
      Sqlite3Ruby.bindParam host entry.2 = .ok write.2) entries nameds)
    {name : List UInt8} {index : Nat}
    (hindex : (Placeholder.named name, index) ∈ (numbering ps).occurrences) :
    ∃ entry ∈ entries, fullName entry.1 = some name ∧
      Sqlite3Ruby.bindParam host entry.2 =
        .ok (Bindings.write bindings (positionals ++ nameds) index) := by
  have hwell := numbering_wellNumbered ps
  have hmem := (hnames.mem name).mpr ((mem_occurrences_iff ps _).mp ⟨index, hindex⟩)
  obtain ⟨entry, hentry, hname⟩ := List.mem_map.mp hmem
  obtain ⟨write, hwrite, name', hname', hocc, hstored⟩ :=
    exists_left_of_forall₂ hentries.flip hentry
  obtain rfl : name' = name := Option.some.inj (hname'.symm.trans hname)
  have hfirst : write.1 = index := by
    have hlookup := hwell.named _ _ hocc
    rw [hwell.named _ _ hindex] at hlookup
    exact (Option.some.inj hlookup).symm
  have hwritten : (index, write.2) ∈ nameds := hfirst ▸ hwrite
  rw [write_append, write_of_mem (nodup_nameds hentries hnames.nodup) hwritten]
  exact ⟨entry, hentry, hname, hstored⟩

/-- What the calls of `bind_param` for both kinds of bind variables leave. -/
theorem eachBound_iff (hnumbered : Numbered ps program) (hnames : NamesAll ps entries)
    {writes : List (Nat × Stored)}
    (hwrites : List.Forall₂ (Writes host program) (positional 1 values ++ entries) writes) :
    EachBound host ps values entries (Bindings.write bindings writes) ↔
      List.Forall₂ (Fits host values bindings) (numbering ps).anonymous values := by
  obtain ⟨positionals, nameds, hpositionals, hnameds, rfl⟩ :
      ∃ positionals nameds, List.Forall₂ (Writes host program) (positional 1 values) positionals ∧
        List.Forall₂ (Writes host program) entries nameds ∧ writes = positionals ++ nameds :=
    ⟨_, _, (List.forall₂_take_append _ _ _ hwrites.flip).flip,
      (List.forall₂_drop_append _ _ _ hwrites.flip).flip, (List.take_append_drop _ _).symm⟩
  obtain ⟨hindices, hvalues⟩ := writes_positional (n := 1) hpositionals
  have hentries := writes_named hnumbered hnames hnameds
  have hocc (write : Nat × Stored) (hwrite : write ∈ nameds) :
      ∃ name, (Placeholder.named name, write.1) ∈ (numbering ps).occurrences := by
    obtain ⟨entry, -, name, -, hname, -⟩ := exists_left_of_forall₂ hentries hwrite
    exact ⟨name, hname⟩
  have hfits (index : Nat) (hindex : index ∈ (numbering ps).anonymous) (v : Value) :
      Sqlite3Ruby.bindParam host v =
          .ok (Bindings.write bindings (positionals ++ nameds) index) ↔
        Fits host values bindings index v :=
    bound_anonymous hindices hvalues hocc hindex v
  have hsame : List.Forall₂ (fun index v =>
        Sqlite3Ruby.bindParam host v = .ok (Bindings.write bindings (positionals ++ nameds) index))
        (numbering ps).anonymous values ↔
      List.Forall₂ (Fits host values bindings) (numbering ps).anonymous values := by
    rw [List.forall₂_iff_zip, List.forall₂_iff_zip]
    refine and_congr_right fun _ => ⟨fun h index v hmem => ?_, fun h index v hmem => ?_⟩
    · exact (hfits index (List.of_mem_zip hmem).1 v).mp (h hmem)
    · exact (hfits index (List.of_mem_zip hmem).1 v).mpr (h hmem)
  constructor
  · exact fun h => hsame.mp h.anonymous
  · exact fun h => ⟨hsame.mpr h, fun name index hindex => bound_named hnames hentries hindex⟩

end Bound

theorem step_bindings (m : Machine C) :
    (Statement.step m).2.statement.bindings = m.statement.bindings := by
  rw [step_snd]
  split
  · rfl
  · split
    · exact stepped_bindings m
    · split
      · exact stepped_bindings m
      · split
        · exact stepped_bindings m
        · exact stepped_bindings m

/-- Both calls bind what `bind_params` binds, `execute` after a reset. -/
theorem run_writes {host : Host} {vars : List BindVar} {call : BindCall} {m m' : Machine C}
    (hrun : call.run host vars m = (.ok (), m')) :
    ∃ writes, List.Forall₂ (Writes host m.statement.program) (assignments 1 (flattenAll vars))
        writes ∧
      m'.statement.bindings = Bindings.write m.statement.bindings writes := by
  cases call with
  | bindParams =>
      obtain ⟨writes, hwrites, -, rfl⟩ := (bindParams_eq_ok_iff host).mp hrun
      exact ⟨writes, hwrites, rfl⟩
  | execute =>
      rw [BindCall.run, execute_eq] at hrun
      obtain ⟨_, t, hreset, hrun⟩ := RubyM.bind_eq_ok_iff.mp hrun
      obtain ⟨-, rfl⟩ := Prod.mk.inj hreset
      obtain ⟨_, t, hbind, hlast⟩ := RubyM.bind_eq_ok_iff.mp hrun
      obtain ⟨writes, hwrites, -, rfl⟩ := (bindParams_eq_ok_iff host).mp hbind
      refine ⟨writes, hwrites, ?_⟩
      split at hlast
      · obtain ⟨row, t, hstep, hpure⟩ := RubyM.bind_eq_ok_iff.mp hlast
        obtain ⟨-, rfl⟩ := Prod.mk.inj hpure
        have hbindings := step_bindings ((m.reset.setDoneP false).setBindings
          (Bindings.write m.statement.bindings writes))
        rw [show Statement.step ((m.reset.setDoneP false).setBindings
          (Bindings.write m.statement.bindings writes)) = _ from hstep] at hbindings
        exact hbindings
      · obtain ⟨-, rfl⟩ := Prod.mk.inj hlast
        rfl

/-- After a call with `k` values and a value for each name, the i-th anonymous placeholder
is bound to the i-th value and each name to its own, exactly when what comes to the number of
each anonymous placeholder fits. -/
theorem mixed_bound_iff (host : Host) {ps : List Placeholder} {m m' : Machine C}
    (hnumbered : Numbered ps m.statement.program) {values : List Value}
    {entries : List (ParamKey × Value)} (hnames : NamesAll ps entries) (call : BindCall)
    (hrun : call.run host (mixedVars values entries) m = (.ok (), m')) :
    EachBound host ps values entries m'.statement.bindings ↔
      List.Forall₂ (Fits host values m.statement.bindings) (numbering ps).anonymous values := by
  obtain ⟨writes, hwrites, hbindings⟩ := run_writes hrun
  rw [assignments_mixed] at hwrites
  rw [hbindings]
  exact eachBound_iff hnumbered hnames hwrites

/-- `insert into t values (:name, ?)`, in this order or in the other. -/
def nameAndMark (nameFirst : Bool) : List Placeholder :=
  if nameFirst then [.named [58, 110], .anonymous] else [.anonymous, .named [58, 110]]

def mixedProgram (ps : List Placeholder) : Program Nat where
  columns := []
  parameterCount := (numbering ps).largest
  parameterIndex name := ((numbering ps).occurrences.lookup (.named name)).getD 0
  answer _ now := .done none (now.content + 1)
  rowless := insertProgram.rowless

theorem mixedProgram_numbered (ps : List Placeholder) : Numbered ps (mixedProgram ps) :=
  ⟨rfl, fun _ => rfl⟩

/-- `"name" => 2`. -/
def nameEntry : List (ParamKey × Value) := [(.value (.string ⟨.string, .utf8, [110]⟩), .integer 2)]

theorem nameEntry_namesAll (nameFirst : Bool) : NamesAll (nameAndMark nameFirst) nameEntry := by
  refine ⟨by simp [nameEntry], fun name => ?_, fun entry hentry => ?_⟩
  · have hname : fullName (.value (.string ⟨.string, .utf8, [110]⟩)) = some [58, 110] := rfl
    cases nameFirst <;> simp [nameEntry, nameAndMark, hname]
  · obtain rfl := List.mem_singleton.mp hentry
    exact ⟨[58, 110], rfl⟩

/-- A `?` before the name gets its value. -/
theorem markFirst_bound :
    EachBound littleHost (nameAndMark false) [.integer 1] nameEntry
      (Statement.bindParams littleHost (mixedVars [.integer 1] nameEntry)
        (prepared (mixedProgram (nameAndMark false)) 0)).2.statement.bindings := by
  refine (mixed_bound_iff littleHost (m := prepared (mixedProgram (nameAndMark false)) 0)
    (mixedProgram_numbered _) (nameEntry_namesAll false) .bindParams rfl).mpr ?_
  exact .cons rfl .nil

/-- A `?` after the name is left NULL, and its value is overwritten by the name's. -/
theorem nameFirst_not_bound :
    ¬ ∀ m', Statement.bindParams littleHost (mixedVars [.integer 1] nameEntry)
        (prepared (mixedProgram (nameAndMark true)) 0) = (.ok (), m') →
      EachBound littleHost (nameAndMark true) [.integer 1] nameEntry m'.statement.bindings := by
  intro h
  cases (h _ rfl).anonymous with
  | cons hfirst _ => exact absurd hfirst (by decide)

end Sqlite3Ruby.Statement
