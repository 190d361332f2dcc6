import Mathlib.Data.List.Basic

/-!
# The lines of a text

A line ends with a newline, which belongs to it; the last line may have none.
`chomp` takes a newline, a carriage return or both off the end of a text.
-/

namespace Lines

variable {α β : Type*}

/-- `text` put before the first line. -/
def prepend (text : List α) : List (List α) → List (List α)
  | [] => [text]
  | line :: rest => (text ++ line) :: rest

section

variable [DecidableEq α] (newline carriageReturn : α)

/-- The lines of a text, each with its newline. -/
def lines : List α → List (List α)
  | [] => []
  | a :: text => if a = newline then [a] :: lines text else prepend [a] (lines text)

/-- A text without the line ending at its end. -/
def chomp (text : List α) : List α :=
  if text.getLast? = some newline then
    if text.dropLast.getLast? = some carriageReturn then text.dropLast.dropLast
    else text.dropLast
  else if text.getLast? = some carriageReturn then text.dropLast
  else text

/-- Lines put under each other. -/
def join (rows : List (List α)) : List α := [newline].intercalate rows

end

theorem flatten_prepend (text : List α) (rows : List (List α)) :
    (prepend text rows).flatten = text ++ rows.flatten := by
  cases rows with
  | nil => simp [prepend]
  | cons line rest => simp [prepend]

theorem prepend_append (text more : List α) (rows : List (List α)) :
    prepend (text ++ more) rows = prepend text (prepend more rows) := by
  cases rows with
  | nil => rfl
  | cons line rest => simp [prepend]

section

variable [DecidableEq α] {newline carriageReturn : α}

theorem lines_newline (text : List α) :
    lines newline (newline :: text) = [newline] :: lines newline text := if_pos rfl

theorem lines_of_ne {a : α} (ha : a ≠ newline) (text : List α) :
    lines newline (a :: text) = prepend [a] (lines newline text) := if_neg ha

theorem flatten_lines (text : List α) : (lines newline text).flatten = text := by
  induction text with
  | nil => rfl
  | cons a text ih =>
    by_cases ha : a = newline
    · rw [ha, lines_newline, List.flatten_cons, ih]
      rfl
    · rw [lines_of_ne ha, flatten_prepend, ih]
      rfl

/-- A text without a newline only makes the next line longer. -/
theorem lines_append_of_not_mem {word : List α} (hne : word ≠ []) (hword : newline ∉ word)
    (text : List α) : lines newline (word ++ text) = prepend word (lines newline text) := by
  induction word with
  | nil => exact absurd rfl hne
  | cons a word ih =>
    rw [List.mem_cons, not_or] at hword
    rw [List.cons_append, lines_of_ne (Ne.symm hword.1)]
    cases word with
    | nil => rfl
    | cons b word =>
      rw [ih (List.cons_ne_nil b word) hword.2, ← prepend_append]
      rfl

/-- Every place of a text is in a line. -/
theorem lines_append_cons (before : List α) (a : α) (after : List α) :
    ∃ rows left right rows', lines newline (before ++ a :: after) =
        rows ++ (left ++ a :: right) :: rows' ∧ rows.flatten ++ left = before := by
  induction before with
  | nil =>
    by_cases ha : a = newline
    · exact ⟨[], [], [], lines newline after, if_pos ha, rfl⟩
    · rw [List.nil_append, lines_of_ne ha]
      cases lines newline after with
      | nil => exact ⟨[], [], [], [], rfl, rfl⟩
      | cons line rest => exact ⟨[], [], line, rest, rfl, rfl⟩
  | cons b before ih =>
    obtain ⟨rows, left, right, rows', hlines, rfl⟩ := ih
    by_cases hb : b = newline
    · refine ⟨[b] :: rows, left, right, rows', ?_, rfl⟩
      rw [List.cons_append, lines, if_pos hb, hlines]
      rfl
    · rw [List.cons_append, lines_of_ne hb, hlines]
      cases rows with
      | nil => exact ⟨[], b :: left, right, rows', rfl, rfl⟩
      | cons row rows => exact ⟨(b :: row) :: rows, left, right, rows', rfl, rfl⟩

end

/-! ## Encoded texts -/

/-- A newline and a carriage return are encoded as one item, which no other item
has in its code. -/
structure Encodes (code : α → List β) (a : α) (b : β) : Prop where
  code_eq : code a = [b]
  eq_of_mem : ∀ {a'}, b ∈ code a' → a' = a

section Encoded

variable {code : α → List β} {newline carriageReturn : α}
  {newline' carriageReturn' : β}

theorem map_prepend (text : List α) (rows : List (List α)) :
    (prepend text rows).map (List.flatMap code) =
      prepend (text.flatMap code) (rows.map (List.flatMap code)) := by
  cases rows with
  | nil => rfl
  | cons line rest => simp [prepend]

/-- The code of a text ends with the code of a line ending where the text ends with it. -/
theorem getLast?_flatMap_iff {a : α} {b : β} (hne : ∀ a, code a ≠ []) (h : Encodes code a b)
    (text : List α) : (text.flatMap code).getLast? = some b ↔ text.getLast? = some a := by
  rcases text.eq_nil_or_concat with rfl | ⟨init, c, rfl⟩
  · simp
  · rw [List.concat_eq_append, List.flatMap_append, List.flatMap_singleton,
      List.getLast?_append_of_ne_nil _ (hne c), List.getLast?_concat, Option.some.injEq]
    constructor
    · exact fun hlast => h.eq_of_mem (List.mem_of_getLast? hlast)
    · rintro rfl
      rw [h.code_eq]
      rfl

theorem dropLast_flatMap {a : α} {b : β} (h : Encodes code a b) {text : List α}
    (hlast : text.getLast? = some a) :
    (text.flatMap code).dropLast = text.dropLast.flatMap code := by
  obtain ⟨init, rfl⟩ := List.getLast?_eq_some_iff.mp hlast
  rw [List.flatMap_append, List.flatMap_singleton, h.code_eq, List.dropLast_concat,
    List.dropLast_concat]

variable [DecidableEq α] [DecidableEq β]

/-- The lines of the code are the codes of the lines. -/
theorem lines_flatMap (hne : ∀ a, code a ≠ []) (hnewline : Encodes code newline newline')
    (text : List α) :
    lines newline' (text.flatMap code) =
      (lines newline text).map (List.flatMap code) := by
  induction text with
  | nil => rfl
  | cons a text ih =>
    rw [List.flatMap_cons]
    by_cases ha : a = newline
    · rw [ha, hnewline.code_eq, List.singleton_append, lines_newline, lines_newline, ih,
        List.map_cons, List.flatMap_singleton, hnewline.code_eq]
    · have hword : newline' ∉ code a := fun h => ha (hnewline.eq_of_mem h)
      rw [lines_append_of_not_mem (hne a) hword, lines_of_ne ha, map_prepend, ih,
        List.flatMap_singleton]

/-- `chomp` takes the code of the line ending off the code. -/
theorem chomp_flatMap (hne : ∀ a, code a ≠ []) (hnewline : Encodes code newline newline')
    (hreturn : Encodes code carriageReturn carriageReturn') (text : List α) :
    chomp newline' carriageReturn' (text.flatMap code) =
      (chomp newline carriageReturn text).flatMap code := by
  rw [chomp, chomp]
  by_cases hlast : text.getLast? = some newline
  · rw [if_pos ((getLast?_flatMap_iff hne hnewline text).mpr hlast), if_pos hlast,
      dropLast_flatMap hnewline hlast]
    by_cases hcr : text.dropLast.getLast? = some carriageReturn
    · rw [if_pos ((getLast?_flatMap_iff hne hreturn _).mpr hcr), if_pos hcr,
        dropLast_flatMap hreturn hcr]
    · rw [if_neg (mt (getLast?_flatMap_iff hne hreturn _).mp hcr), if_neg hcr]
  · rw [if_neg (mt (getLast?_flatMap_iff hne hnewline text).mp hlast), if_neg hlast]
    by_cases hcr : text.getLast? = some carriageReturn
    · rw [if_pos ((getLast?_flatMap_iff hne hreturn text).mpr hcr), if_pos hcr,
        dropLast_flatMap hreturn hcr]
    · rw [if_neg (mt (getLast?_flatMap_iff hne hreturn text).mp hcr), if_neg hcr]

end Encoded

/-! ## Joined lines -/

/-- What stands around one of the rows. -/
theorem join_append_cons (newline : α) (rows rows' : List (List α)) :
    ∃ before after, ∀ row, join newline (rows ++ row :: rows') = before ++ row ++ after := by
  induction rows with
  | nil =>
    cases rows' with
    | nil => exact ⟨[], [], fun row => by simp [join]⟩
    | cons next rows' =>
      refine ⟨[], newline :: join newline (next :: rows'), fun row => ?_⟩
      rw [join, List.nil_append, List.intercalate_cons_cons]
      simp [join]
  | cons first rows ih =>
    obtain ⟨before, after, h⟩ := ih
    refine ⟨first ++ newline :: before, after, fun row => ?_⟩
    have hnonempty : rows ++ row :: rows' ≠ [] := by simp
    obtain ⟨next, rest, hrest⟩ := List.exists_cons_of_ne_nil hnonempty
    rw [List.cons_append, hrest, join, List.intercalate_cons_cons, ← hrest]
    have hjoin := h row
    rw [join] at hjoin
    rw [hjoin]
    simp

/-- Rows that differ in one place are different when they are joined. -/
theorem join_append_cons_inj {newline : α} {rows rows' : List (List α)}
    {row other : List α} :
    join newline (rows ++ row :: rows') = join newline (rows ++ other :: rows') ↔
      row = other := by
  obtain ⟨before, after, h⟩ := join_append_cons newline rows rows'
  rw [h, h, List.append_cancel_right_eq, List.append_cancel_left_eq]

theorem join_cons_cons (newline : α) (row next : List α) (rows : List (List α)) :
    join newline (row :: next :: rows) = row ++ newline :: join newline (next :: rows) := by
  rw [join, List.intercalate_cons_cons, List.append_assoc]
  rfl

section Chomped

variable [DecidableEq α] {newline carriageReturn : α}

theorem lines_ne_nil (text : List α) : ∀ row ∈ lines newline text, row ≠ [] := by
  induction text with
  | nil => simp [lines]
  | cons a text ih =>
    by_cases ha : a = newline
    · rw [ha, lines_newline]
      exact List.forall_mem_cons.mpr ⟨by simp, ih⟩
    · rw [lines_of_ne ha]
      cases hlines : lines newline text with
      | nil => simp [prepend]
      | cons line rest =>
        rw [hlines] at ih
        exact List.forall_mem_cons.mpr ⟨by simp, fun row hrow => ih row (by simp [hrow])⟩

/-- Every line but the last ends with its newline. -/
theorem lines_dropLast (text : List α) :
    ∀ row ∈ (lines newline text).dropLast, ∃ init, row = init ++ [newline] := by
  induction text with
  | nil => simp [lines]
  | cons a text ih =>
    by_cases ha : a = newline
    · rw [ha, lines_newline]
      cases hlines : lines newline text with
      | nil => simp
      | cons line rest =>
        rw [hlines] at ih
        rw [List.dropLast_cons_cons]
        exact List.forall_mem_cons.mpr ⟨⟨[], rfl⟩, ih⟩
    · rw [lines_of_ne ha]
      cases hlines : lines newline text with
      | nil => simp [prepend]
      | cons line rest =>
        rw [hlines] at ih
        cases rest with
        | nil => simp [prepend]
        | cons next rest =>
          rw [List.dropLast_cons_cons, List.forall_mem_cons] at ih
          obtain ⟨⟨init, rfl⟩, hrest⟩ := ih
          rw [prepend, List.dropLast_cons_cons]
          exact List.forall_mem_cons.mpr ⟨⟨a :: init, rfl⟩, hrest⟩

theorem chomp_concat_newline (init : List α) :
    chomp newline carriageReturn (init ++ [newline]) =
      if init.getLast? = some carriageReturn then init.dropLast else init := by
  rw [chomp, List.getLast?_concat, if_pos rfl, List.dropLast_concat]

/-- What is taken off a text that goes on after a newline is taken off the end. -/
theorem chomp_append (hcr : newline ≠ carriageReturn) (init : List α) {text : List α}
    (hne : text ≠ []) :
    chomp newline carriageReturn (init ++ [newline] ++ text) =
      init ++ [newline] ++ chomp newline carriageReturn text := by
  have hlast : (init ++ [newline] ++ text).getLast? = text.getLast? :=
    List.getLast?_append_of_ne_nil _ hne
  have hdrop : (init ++ [newline] ++ text).dropLast = init ++ [newline] ++ text.dropLast :=
    List.dropLast_append_of_ne_nil hne
  rw [chomp, chomp, hlast, hdrop]
  by_cases hdropped : text.dropLast = []
  · -- the text is one item, after which a newline stands in one text and nothing in the other
    have hnewline : (some newline = some carriageReturn) = False := by simpa using hcr
    rw [hdropped, List.append_nil, List.getLast?_concat, List.getLast?_nil]
    simp only [hnewline, reduceCtorEq, if_false]
    split_ifs <;> simp
  · rw [List.getLast?_append_of_ne_nil _ hdropped, List.dropLast_append_of_ne_nil hdropped]
    split_ifs <;> rfl

/-- A row with a newline loses it, and a carriage return before it. -/
theorem chomp_row (init : List α) :
    (chomp newline carriageReturn (init ++ [newline])).length ≤ init.length ∧
      (chomp newline carriageReturn (init ++ [newline]) = init ↔
        ¬ [carriageReturn, newline] <:+ init ++ [newline]) := by
  have hsuffix : [carriageReturn, newline] <:+ init ++ [newline] ↔
      init.getLast? = some carriageReturn := by
    rw [List.getLast?_eq_some_iff]
    constructor
    · rintro ⟨rest, hrest⟩
      have hsame : init ++ [newline] = rest ++ [carriageReturn] ++ [newline] := by
        rw [← hrest, List.append_assoc]
        rfl
      exact ⟨rest, List.append_cancel_right hsame⟩
    · rintro ⟨rest, rfl⟩
      exact ⟨rest, by simp⟩
  rw [chomp_concat_newline, hsuffix]
  split_ifs with hlast
  · obtain ⟨rest, rfl⟩ := List.getLast?_eq_some_iff.mp hlast
    simp
  · simp [hlast]

/-- The chomped lines of a text are at most as long as the chomped text, and they
are the chomped text when only the last line ends with both items. -/
theorem join_map_chomp (hcr : newline ≠ carriageReturn) {rows : List (List α)}
    (hne : ∀ row ∈ rows, row ≠ [])
    (hends : ∀ row ∈ rows.dropLast, ∃ init, row = init ++ [newline]) :
    (join newline (rows.map (chomp newline carriageReturn))).length ≤
        (chomp newline carriageReturn rows.flatten).length ∧
      (join newline (rows.map (chomp newline carriageReturn)) =
          chomp newline carriageReturn rows.flatten ↔
        ∀ row ∈ rows.dropLast, ¬ [carriageReturn, newline] <:+ row) := by
  induction rows with
  | nil => simp [join, chomp]
  | cons row rows ih =>
    cases rows with
    | nil => simp [join]
    | cons next rows =>
      rw [List.forall_mem_cons] at hne
      rw [List.dropLast_cons_cons, List.forall_mem_cons] at hends
      obtain ⟨⟨init, rfl⟩, hends⟩ := hends
      obtain ⟨hlength, hiff⟩ := ih hne.2 hends
      obtain ⟨hshort, hwhole⟩ := chomp_row init
      have hflat : (next :: rows).flatten ≠ [] := by
        simp [hne.2 next List.mem_cons_self]
      rw [List.map_cons, List.map_cons, join_cons_cons, ← List.map_cons, List.flatten_cons,
        chomp_append hcr init hflat, List.dropLast_cons_cons, List.forall_mem_cons, ← hiff,
        ← hwhole]
      refine ⟨by simp only [List.length_append, List.length_cons, List.length_nil]; omega, ?_⟩
      constructor
      · -- neither part can make up for the other
        intro h
        rw [List.append_assoc] at h
        have htotal := congrArg List.length h
        simp only [List.length_append, List.length_cons, List.length_nil] at htotal
        obtain ⟨hrow, hrest⟩ := List.append_inj h (by omega)
        exact ⟨hrow, (List.cons.inj hrest).2⟩
      · rintro ⟨hrow, hrest⟩
        rw [hrow, hrest]
        simp

end Chomped

end Lines
