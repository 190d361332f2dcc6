import Sqlite3Ruby.Parameters

/-!
# The names of the parameters

`named_params` takes the first character off the name that SQLite keeps for a parameter,
and `bind_param` puts a colon before a name that has none. The names of SQLite begin with
one of three characters.

## Implementation notes

The numbers and names are those that SQLite gives while it reads the text: the list of
the names has an entry for each number that has one.
-/

namespace Sqlite3Ruby.Statement

variable {C : Type}

/-- The first character of a named parameter. -/
inductive Sigil
  | colon
  | at_
  | dollar
  deriving DecidableEq

def Sigil.byte : Sigil → UInt8
  | .colon => 58
  | .at_ => 64
  | .dollar => 36

/-- What follows the first character. -/
abbrev Word := {bytes : List UInt8 // bytes ≠ [] ∧ 0 ∉ bytes}

/-- The number that is written with these digits. -/
def digitsNumber (digits : List UInt8) : Nat :=
  digits.foldl (fun n digit => 10 * n + (digit.toNat - 48)) 0

/-- The digits of a number from 1 on. -/
abbrev Digits :=
  {digits : List UInt8 // (∀ digit ∈ digits, 48 ≤ digit ∧ digit ≤ 57) ∧ 1 ≤ digitsNumber digits}

/-- A parameter in the text of a statement: `?`, `?NNN`, or a named one. -/
inductive Variable
  | anonymous
  | numbered (digits : Digits)
  | named (sigil : Sigil) (word : Word)
  deriving DecidableEq

/-- The numbers so far: the largest, the names, and the number of each parameter. -/
structure VarList where
  nVar : Nat
  names : List (List UInt8 × Nat)
  occurrences : List (Variable × Nat)

namespace VarList

/-- `sqlite3_bind_parameter_index`, 0 for no such name. -/
def numberOf (l : VarList) (name : List UInt8) : Nat := (l.names.lookup name).getD 0

/-- `sqlite3_bind_parameter_name`. -/
def nameOf (l : VarList) (number : Nat) : Option (List UInt8) :=
  (l.names.find? (·.2 = number)).map (·.1)

/-- A name for a number, and the parameter that has the number. -/
def addName (l : VarList) (name : List UInt8) (v : Variable) (number : Nat) : VarList where
  nVar := max l.nVar number
  names := l.names ++ [(name, number)]
  occurrences := l.occurrences ++ [(v, number)]

/-- A parameter that needs no new name. -/
def addOccurrence (l : VarList) (v : Variable) (number : Nat) : VarList where
  nVar := max l.nVar number
  names := l.names
  occurrences := l.occurrences ++ [(v, number)]

/-- The next parameter of the text. -/
def add (l : VarList) : Variable → VarList
  | .anonymous => l.addOccurrence .anonymous (l.nVar + 1)
  | .numbered digits =>
      let number := digitsNumber digits.1
      if l.nVar < number ∨ l.nameOf number = none then
        l.addName (63 :: digits.1) (.numbered digits) number
      else l.addOccurrence (.numbered digits) number
  | .named sigil word =>
      let name := sigil.byte :: word.1
      match l.names.lookup name with
      | some number => l.addOccurrence (.named sigil word) number
      | none => l.addName name (.named sigil word) (l.nVar + 1)

end VarList

def varList (vs : List Variable) : VarList := vs.foldl VarList.add ⟨0, [], []⟩

/-- What SQLite makes of a text with these parameters. -/
structure Names (vs : List Variable) (program : Program C)
    (parameterName : Nat → Option (List UInt8)) : Prop where
  count : program.parameterCount = (varList vs).nVar
  index : ∀ name, program.parameterIndex name = (varList vs).numberOf name
  name : ∀ number, parameterName number = (varList vs).nameOf number

/-- The name without its first character, unless there is none or it begins with `?`. -/
def paramName : Option (List UInt8) → Option (List UInt8)
  | some (first :: word) => if first = 63 then none else some word
  | _ => none

/-- The loop of `named_params`: the numbers with the names that are taken from them. -/
def takenFrom (program : Program C) (parameterName : Nat → Option (List UInt8)) :
    List (Nat × List UInt8) :=
  (List.range' 1 program.parameterCount).filterMap fun i =>
    (paramName (parameterName i)).map fun name => (i, name)

/-- `named_params`. -/
def namedParams (program : Program C) (parameterName : Nat → Option (List UInt8)) :
    List (List UInt8) :=
  (takenFrom program parameterName).map (·.2)

/-- A name as the key of `bind_param`. -/
def nameKey (name : List UInt8) : ParamKey := .value (.string ⟨.string, .utf8, name⟩)

/-- Each name that is reported binds the parameter it was taken from, and these are the
parameters that have a name. -/
structure NamesBind (host : Host) (vs : List Variable) (m : Machine C)
    (parameterName : Nat → Option (List UInt8)) : Prop where
  binds : ∀ i name, (i, name) ∈ takenFrom m.statement.program parameterName →
    ∀ v stored, Sqlite3Ruby.bindParam host v = .ok stored →
      bindParam host (nameKey name) v m =
        (.ok (), m.setBindings (Function.update m.statement.bindings i stored))
  reported : ∀ i name, (i, name) ∈ takenFrom m.statement.program parameterName ↔
    ∃ sigil word, (.named sigil word, i) ∈ (varList vs).occurrences ∧ name = word.1

/-! ## The list of the names -/

theorem Sigil.byte_injective : Function.Injective Sigil.byte := by
  intro s t h
  cases s <;> cases t <;> first | rfl | exact absurd h (by decide)

theorem Sigil.byte_ne_question (sigil : Sigil) : sigil.byte ≠ 63 := by
  cases sigil <;> decide

/-- The entries are in order: each number and each name has one at most, a name of the form
`?NNN` stands for its number, and the others are the named parameters of the text. -/
structure VarList.Inv (l : VarList) : Prop where
  range : ∀ name i, (name, i) ∈ l.names → 1 ≤ i ∧ i ≤ l.nVar
  numbers : (l.names.map (·.2)).Nodup
  texts : (l.names.map (·.1)).Nodup
  numbered : ∀ name i, (name, i) ∈ l.names → name.head? = some 63 → i = digitsNumber name.tail
  named : ∀ name i, (name, i) ∈ l.names → name.head? ≠ some 63 →
    ∃ sigil word, name = sigil.byte :: word.1 ∧ (.named sigil word, i) ∈ l.occurrences
  entry : ∀ sigil word i, (.named sigil word, i) ∈ l.occurrences →
    (sigil.byte :: word.1, i) ∈ l.names

namespace VarList

variable {l : VarList}

theorem lookup_eq_some_iff (hl : l.Inv) {name : List UInt8} {i : Nat} :
    l.names.lookup name = some i ↔ (name, i) ∈ l.names := lookup_eq_some_iff_mem hl.texts

theorem nameOf_eq_some_iff (hl : l.Inv) {name : List UInt8} {i : Nat} :
    l.nameOf i = some name ↔ (name, i) ∈ l.names := by
  rw [nameOf, Option.map_eq_some_iff]
  constructor
  · rintro ⟨⟨name', j⟩, hfind, rfl⟩
    have hj : j = i := by simpa using List.find?_some hfind
    rw [← hj]
    exact List.mem_of_find?_eq_some hfind
  · intro h
    cases hfind : l.names.find? (·.2 = i) with
    | none => exact absurd (List.find?_eq_none.mp hfind _ h) (by simp)
    | some e =>
        have he : e.2 = i := by simpa using List.find?_some hfind
        have hsame : e = (name, i) :=
          List.inj_on_of_nodup_map hl.numbers (List.mem_of_find?_eq_some hfind) h he
        exact ⟨e, rfl, congrArg Prod.fst hsame⟩

theorem addOccurrence_inv (hl : l.Inv) {v : Variable} {number : Nat}
    (hv : ∀ sigil word, v = .named sigil word → (sigil.byte :: word.1, number) ∈ l.names) :
    (l.addOccurrence v number).Inv where
  range name i h := ⟨(hl.range name i h).1, le_trans (hl.range name i h).2 (le_max_left _ _)⟩
  numbers := hl.numbers
  texts := hl.texts
  numbered := hl.numbered
  named name i h hfirst := by
    obtain ⟨sigil, word, hname, hmem⟩ := hl.named name i h hfirst
    exact ⟨sigil, word, hname, List.mem_append_left _ hmem⟩
  entry sigil word i h := by
    rcases List.mem_append.mp h with h | h
    · exact hl.entry sigil word i h
    · obtain ⟨hv', rfl⟩ := Prod.mk.inj (List.mem_singleton.mp h)
      exact hv sigil word hv'.symm

/-- The parameter is written so, and has this number if it is written in it. -/
def Written (v : Variable) (name : List UInt8) (number : Nat) : Prop :=
  match v with
  | .anonymous => False
  | .numbered digits => name = 63 :: digits.1 ∧ number = digitsNumber digits.1
  | .named sigil word => name = sigil.byte :: word.1

theorem addName_inv (hl : l.Inv) {v : Variable} {name : List UInt8} {number : Nat}
    (hpos : 1 ≤ number) (hnumber : ∀ name', (name', number) ∉ l.names)
    (hname : ∀ i, (name, i) ∉ l.names) (hv : Written v name number) :
    (l.addName name v number).Inv := by
  have hmem (e : List UInt8 × Nat) :
      e ∈ (l.addName name v number).names ↔ e ∈ l.names ∨ e = (name, number) := by
    simp [addName]
  constructor
  · intro name' i h
    rcases (hmem _).mp h with h | h
    · exact ⟨(hl.range name' i h).1, le_trans (hl.range name' i h).2 (le_max_left _ _)⟩
    · obtain ⟨-, rfl⟩ := Prod.mk.inj h
      exact ⟨hpos, le_max_right _ _⟩
  · rw [addName, List.map_append, List.map_singleton]
    refine List.nodup_append.mpr ⟨hl.numbers, List.nodup_singleton _, ?_⟩
    rintro i hi j hj rfl
    obtain ⟨e, he, rfl⟩ := List.mem_map.mp hi
    have hlast : e.2 = number := List.mem_singleton.mp hj
    exact hnumber e.1 (hlast ▸ he)
  · rw [addName, List.map_append, List.map_singleton]
    refine List.nodup_append.mpr ⟨hl.texts, List.nodup_singleton _, ?_⟩
    rintro text htext text' htext' rfl
    obtain ⟨e, he, rfl⟩ := List.mem_map.mp htext
    have hlast : e.1 = name := List.mem_singleton.mp htext'
    exact hname e.2 (hlast ▸ he)
  · intro name' i h hfirst
    rcases (hmem _).mp h with h | h
    · exact hl.numbered name' i h hfirst
    · obtain ⟨rfl, rfl⟩ := Prod.mk.inj h
      cases v with
      | anonymous => exact hv.elim
      | numbered digits =>
          obtain ⟨rfl, hnumber⟩ := hv
          exact hnumber
      | named sigil word =>
          obtain rfl := hv
          exact absurd (Option.some.inj hfirst) sigil.byte_ne_question
  · intro name' i h hfirst
    rcases (hmem _).mp h with h | h
    · obtain ⟨sigil, word, hname', hocc⟩ := hl.named name' i h hfirst
      exact ⟨sigil, word, hname', List.mem_append_left _ hocc⟩
    · obtain ⟨rfl, rfl⟩ := Prod.mk.inj h
      cases v with
      | anonymous => exact hv.elim
      | numbered digits => exact absurd (by rw [hv.1]; rfl) hfirst
      | named sigil word => exact ⟨sigil, word, hv, by simp [addName]⟩
  · intro sigil word i h
    rcases List.mem_append.mp h with h | h
    · exact (hmem _).mpr (Or.inl (hl.entry sigil word i h))
    · obtain ⟨rfl, rfl⟩ := Prod.mk.inj (List.mem_singleton.mp h)
      obtain rfl := hv
      exact (hmem _).mpr (Or.inr rfl)

theorem not_mem_of_lt (hl : l.Inv) {number : Nat} (h : l.nVar < number) (name : List UInt8) :
    (name, number) ∉ l.names := fun hmem => absurd (hl.range name number hmem).2 (by omega)

theorem add_inv (hl : l.Inv) (v : Variable) : (l.add v).Inv := by
  cases v with
  | anonymous => exact addOccurrence_inv hl fun _ _ h => by cases h
  | numbered digits =>
      rw [add]
      split
      · rename_i hnew
        have hnumber (name : List UInt8) : (name, digitsNumber digits.1) ∉ l.names := by
          intro hmem
          rcases hnew with hlt | hnone
          · exact not_mem_of_lt hl hlt name hmem
          · rw [(nameOf_eq_some_iff hl).mpr hmem] at hnone
            cases hnone
        refine addName_inv hl digits.2.2 hnumber (fun i hmem => ?_) ⟨rfl, rfl⟩
        obtain rfl : i = digitsNumber digits.1 := hl.numbered _ i hmem rfl
        exact hnumber _ hmem
      · exact addOccurrence_inv hl fun _ _ h => by cases h
  | named sigil word =>
      rw [add]
      cases hlookup : l.names.lookup (sigil.byte :: word.1) with
      | some number =>
          refine addOccurrence_inv hl fun sigil' word' h => ?_
          obtain ⟨rfl, rfl⟩ := Variable.named.inj h
          exact (lookup_eq_some_iff hl).mp hlookup
      | none =>
          refine addName_inv hl (Nat.le_add_left 1 _) (not_mem_of_lt hl (Nat.lt_succ_self _))
            (fun i hmem => ?_) rfl
          rw [(lookup_eq_some_iff hl).mpr hmem] at hlookup
          cases hlookup

end VarList

theorem varList_inv (vs : List Variable) : (varList vs).Inv := by
  induction vs using List.reverseRecOn with
  | nil => constructor <;> simp [varList]
  | append_singleton vs v ih =>
      rw [varList, List.foldl_append]
      exact VarList.add_inv ih v

/-- Each parameter of the text has its number. -/
theorem mem_varList_iff (vs : List Variable) (v : Variable) :
    (∃ i, (v, i) ∈ (varList vs).occurrences) ↔ v ∈ vs := by
  induction vs using List.reverseRecOn with
  | nil => simp [varList]
  | append_singleton vs w ih =>
      have hadd : ∃ i, ((varList vs).add w).occurrences = (varList vs).occurrences ++ [(w, i)] := by
        cases w with
        | anonymous => exact ⟨_, rfl⟩
        | numbered digits =>
            rw [VarList.add]
            split <;> exact ⟨_, rfl⟩
        | named sigil word =>
            rw [VarList.add]
            cases (varList vs).names.lookup (sigil.byte :: word.1) <;> exact ⟨_, rfl⟩
      obtain ⟨i, hi⟩ := hadd
      rw [varList, List.foldl_append]
      change (∃ j, (v, j) ∈ ((varList vs).add w).occurrences) ↔ _
      simp only [hi, List.mem_append, List.mem_singleton, exists_or, ih]
      simp

/-! ## Names as keys -/

theorem paramName_eq_some_iff {name : Option (List UInt8)} {word : List UInt8} :
    paramName name = some word ↔ ∃ first, name = some (first :: word) ∧ first ≠ 63 := by
  cases name with
  | none => simp [paramName]
  | some bytes =>
      cases bytes with
      | nil => simp [paramName]
      | cons first rest =>
          by_cases hfirst : first = 63 <;> simp [paramName, hfirst]

section Keys

variable {vs : List Variable} {program : Program C} {parameterName : Nat → Option (List UInt8)}

/-- What `named_params` reports are the named parameters. -/
theorem mem_takenFrom_iff (h : Names vs program parameterName) (i : Nat) (name : List UInt8) :
    (i, name) ∈ takenFrom program parameterName ↔
      ∃ sigil word, (.named sigil word, i) ∈ (varList vs).occurrences ∧ name = word.1 := by
  have hl := varList_inv vs
  have htaken : (i, name) ∈ takenFrom program parameterName ↔
      (1 ≤ i ∧ i ≤ (varList vs).nVar) ∧ paramName ((varList vs).nameOf i) = some name := by
    simp only [takenFrom, List.mem_filterMap, List.mem_range'_1, h.count, h.name,
      Option.map_eq_some_iff, Prod.mk.injEq]
    constructor
    · rintro ⟨j, hj, name', hname, rfl, rfl⟩
      exact ⟨by omega, hname⟩
    · rintro ⟨hi, hname⟩
      exact ⟨i, by omega, name, hname, rfl, rfl⟩
  rw [htaken, paramName_eq_some_iff]
  constructor
  · rintro ⟨-, first, hname, hfirst⟩
    have hmem := (VarList.nameOf_eq_some_iff hl).mp hname
    obtain ⟨sigil, word, heq, hocc⟩ := hl.named _ i hmem (by simpa using hfirst)
    exact ⟨sigil, word, hocc, (List.cons.inj heq).2⟩
  · rintro ⟨sigil, word, hocc, rfl⟩
    have hmem := hl.entry sigil word i hocc
    refine ⟨hl.range _ i hmem, sigil.byte, ?_, sigil.byte_ne_question⟩
    exact (VarList.nameOf_eq_some_iff hl).mpr hmem

/-- The number that `bind_param` finds for a word. -/
theorem namedIndex_word (h : Names vs program parameterName) (word : Word) :
    program.namedIndex word.1 =
      (varList vs).numberOf (if word.1.head? = some 58 then word.1 else 58 :: word.1) := by
  have hzero : (if word.1.head? = some 58 then word.1 else 58 :: word.1).takeWhile (· ≠ 0) =
      if word.1.head? = some 58 then word.1 else 58 :: word.1 := by
    rw [List.takeWhile_eq_self_iff]
    intro b hb
    have hne : b ≠ 0 := by
      rintro rfl
      split at hb
      · exact word.2.2 hb
      · rcases List.mem_cons.mp hb with hb | hb
        · cases hb
        · exact word.2.2 hb
    simpa using hne
  rw [Program.namedIndex, hzero, h.index]

/-- `bind_param` looks a name up under the one it was taken from exactly when that begins
with a colon and the word does not. -/
theorem numberOf_word_iff {sigil : Sigil} {word : Word} {i : Nat}
    (hocc : (.named sigil word, i) ∈ (varList vs).occurrences) :
    (varList vs).numberOf (if word.1.head? = some 58 then word.1 else 58 :: word.1) = i ↔
      sigil = .colon ∧ word.1.head? ≠ some 58 := by
  have hl := varList_inv vs
  have hmem := hl.entry sigil word i hocc
  constructor
  · intro h
    rw [VarList.numberOf] at h
    cases hlookup : (varList vs).names.lookup
        (if word.1.head? = some 58 then word.1 else 58 :: word.1) with
    | none =>
        have hpos := (hl.range _ i hmem).1
        rw [hlookup] at h
        change 0 = i at h
        omega
    | some j =>
        rw [hlookup] at h
        obtain rfl : j = i := h
        have hkey := (VarList.lookup_eq_some_iff hl).mp hlookup
        have hsame := congrArg Prod.fst (List.inj_on_of_nodup_map hl.numbers hkey hmem rfl)
        by_cases hcolon : word.1.head? = some 58
        · have hlength := congrArg List.length hsame
          simp [hcolon] at hlength
        · rw [if_neg hcolon] at hsame
          exact ⟨Sigil.byte_injective (List.cons.inj hsame).1.symm, hcolon⟩
  · rintro ⟨rfl, hcolon⟩
    have hlookup : (varList vs).names.lookup (58 :: word.1) = some i :=
      (VarList.lookup_eq_some_iff hl).mpr hmem
    rw [if_neg hcolon, VarList.numberOf, hlookup]
    rfl

/-- The name binds the parameter exactly when it is found under its number. -/
theorem bind_name_iff (host : Host) {m : Machine C} (hready : m.statement.vm.isReady = true)
    (h : Names vs m.statement.program parameterName) {sigil : Sigil} {word : Word} {i : Nat}
    (hocc : (.named sigil word, i) ∈ (varList vs).occurrences) :
    (∀ v stored, Sqlite3Ruby.bindParam host v = .ok stored →
        bindParam host (nameKey word.1) v m =
          (.ok (), m.setBindings (Function.update m.statement.bindings i stored))) ↔
      m.statement.program.namedIndex word.1 = i := by
  have hrange := (varList_inv vs).range _ i ((varList_inv vs).entry sigil word i hocc)
  constructor
  · intro hbinds
    -- Of two values one is new to the parameter that is written.
    have hwritten (n : Int64) : ∃ j : Nat, m.statement.program.namedIndex word.1 = j ∧
        (j = i ∨ m.statement.bindings j = .value (.integer n)) := by
      have hstored : Sqlite3Ruby.bindParam host (.integer n.toInt) = .ok (.value (.integer n)) := by
        have hcall : bindCall host (.integer n.toInt) = .ok (.int64 n) := by
          rw [bindCall_integer, if_pos (isInt64_toInt n), Int64.ofInt_toInt]
        exact bindParam_eq_value hcall rfl
      obtain ⟨write, hwrite, -, hm⟩ := (bindParam_eq_ok_iff host).mp (hbinds _ _ hstored)
      refine ⟨write.1, Outcome.ok.inj hwrite.index, ?_⟩
      have hvalue : write.2 = .value (.integer n) :=
        Outcome.ok.inj (hwrite.stored.symm.trans hstored)
      by_cases hsame : write.1 = i
      · exact Or.inl hsame
      · have hbindings := congrArg (fun m : Machine C => m.statement.bindings write.1) hm
        change Function.update m.statement.bindings i _ write.1 =
          Function.update m.statement.bindings write.1 write.2 write.1 at hbindings
        rw [Function.update_of_ne hsame, Function.update_self, hvalue] at hbindings
        exact Or.inr hbindings
    obtain ⟨j, hj, h0⟩ := hwritten 0
    obtain ⟨k, hk, h1⟩ := hwritten 1
    obtain rfl : j = k := by exact_mod_cast hj.symm.trans hk
    rcases h0 with rfl | h0
    · exact hj
    · rcases h1 with rfl | h1
      · exact hj
      · rw [h0] at h1
        exact absurd h1 (by decide)
  · intro hindex v stored hstored
    refine (bindParam_eq_ok_iff host).mpr ⟨(i, stored), ⟨?_, hrange.1, ?_, hstored⟩, hready, rfl⟩
    · exact congrArg Outcome.ok hindex
    · rw [h.count]
      exact hrange.2

end Keys

/-- Each reported name binds its own parameter, and the named parameters are those reported,
exactly when every named parameter is written with a colon before a word that has none. -/
theorem named_params_bind_iff (host : Host) {vs : List Variable} {m : Machine C}
    {parameterName : Nat → Option (List UInt8)} (hready : m.statement.vm.isReady = true)
    (h : Names vs m.statement.program parameterName) :
    NamesBind host vs m parameterName ↔
      ∀ sigil word, .named sigil word ∈ vs → sigil = .colon ∧ word.1.head? ≠ some 58 := by
  have hindex {sigil : Sigil} {word : Word} {i : Nat}
      (hocc : (.named sigil word, i) ∈ (varList vs).occurrences) :
      m.statement.program.namedIndex word.1 = i ↔ sigil = .colon ∧ word.1.head? ≠ some 58 := by
    rw [namedIndex_word h, Nat.cast_inj]
    exact numberOf_word_iff hocc
  constructor
  · intro hbind sigil word hmem
    obtain ⟨i, hocc⟩ := (mem_varList_iff vs _).mpr hmem
    have htaken := (hbind.reported i word.1).mpr ⟨sigil, word, hocc, rfl⟩
    exact (hindex hocc).mp ((bind_name_iff host hready h hocc).mp (hbind.binds i word.1 htaken))
  · intro hcolon
    refine ⟨fun i name htaken => ?_, mem_takenFrom_iff h⟩
    obtain ⟨sigil, word, hocc, rfl⟩ := (mem_takenFrom_iff h i name).mp htaken
    have hmem := (mem_varList_iff vs _).mp ⟨i, hocc⟩
    exact (bind_name_iff host hready h hocc).mpr ((hindex hocc).mpr (hcolon sigil word hmem))

/-- `select` with these parameters, on a database whose content is a number. -/
def variableProgram (vs : List Variable) : Program Nat where
  columns := []
  parameterCount := (varList vs).nVar
  parameterIndex := (varList vs).numberOf
  answer _ now := .done none (now.content + 1)
  rowless := insertProgram.rowless

theorem variableProgram_names (vs : List Variable) :
    Names vs (variableProgram vs) (varList vs).nameOf :=
  ⟨rfl, fun _ => rfl, fun _ => rfl⟩

/-- `foo`. -/
def fooWord : Word := ⟨[102, 111, 111], by decide⟩

/-- `?5`. -/
def fiveDigits : Digits :=
  ⟨[53], List.forall_mem_singleton.mpr ⟨by decide, by decide⟩, by decide⟩

example : namedParams (variableProgram [.anonymous, .named .dollar fooWord, .numbered fiveDigits,
    .named .at_ fooWord, .anonymous, .named .dollar fooWord])
    (varList [.anonymous, .named .dollar fooWord, .numbered fiveDigits, .named .at_ fooWord,
      .anonymous, .named .dollar fooWord]).nameOf = [fooWord.1, fooWord.1] := by decide

/-- `?5, :foo, ?`. -/
theorem colonName_binds :
    NamesBind littleHost [.numbered fiveDigits, .named .colon fooWord, .anonymous]
      (prepared (variableProgram [.numbered fiveDigits, .named .colon fooWord, .anonymous]) 0)
      (varList [.numbered fiveDigits, .named .colon fooWord, .anonymous]).nameOf := by
  refine (named_params_bind_iff littleHost rfl (variableProgram_names _)).mpr fun sigil word h => ?_
  have hname : Variable.named sigil word = .named .colon fooWord := by simpa using h
  obtain ⟨rfl, rfl⟩ := Variable.named.inj hname
  exact ⟨rfl, by decide⟩

/-- `@foo` is reported as `foo`, and there is no `:foo`. -/
theorem atName_not_bound :
    ¬ NamesBind littleHost [.named .at_ fooWord]
      (prepared (variableProgram [.named .at_ fooWord]) 0)
      (varList [.named .at_ fooWord]).nameOf := by
  intro h
  have hbinds := h.binds 1 fooWord.1 (by decide) .nil (.value .null) rfl
  have hraise : (bindParam littleHost (nameKey fooWord.1) .nil
      (prepared (variableProgram [.named .at_ fooWord]) 0)).1 =
        .raise ⟨.SQLite3Exception, "no such bind parameter"⟩ := rfl
  rw [hbinds] at hraise
  cases hraise

end Sqlite3Ruby.Statement
