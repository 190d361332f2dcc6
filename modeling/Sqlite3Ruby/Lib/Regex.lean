import Mathlib.Data.List.Basic

/-!
# Regular expressions over lines

A pattern is a row of pieces: anchors, which look at what stands before and after a place,
single items, and groups that take as many items as the rest of the pattern lets them. It is
searched for from left to right, and a match is told by what its groups have taken.

## Implementation notes

A place is the item before it and the items after it. `lineStart` does not stand after the last
newline of a text that ends with one, and `lineEnd` does.
-/

namespace Regex

variable {α β : Type*}

inductive Piece (α : Type*)
  | lineStart
  | lineEnd
  | one (p : α → Bool)
  | greedy (p : α → Bool)

/-- The item before the place that comes after these. -/
def lastOf (before : Option α) (taken : List α) : Option α := taken.getLast?.or before

@[simp] theorem lastOf_nil (before : Option α) : lastOf before [] = before := rfl

@[simp] theorem lastOf_cons (before : Option α) (a : α) (taken : List α) :
    lastOf before (a :: taken) = lastOf (some a) taken := by
  rw [lastOf, lastOf, List.getLast?_cons]
  cases taken.getLast? <;> rfl

/-- A group and what comes after it. More items are tried before fewer. -/
def greedily (p : α → Bool) (after : Option α → List α → Option β) :
    Option α → List α → Option (List α × β)
  | before, [] => (after before []).map ([], ·)
  | before, a :: rest =>
      (if p a then (greedily p after (some a) rest).map fun m => (a :: m.1, m.2) else none).or
        ((after before (a :: rest)).map ([], ·))

section Matching

variable [DecidableEq α] (newline : α)

def atLineStart (before : Option α) (rest : List α) : Bool :=
  match before with
  | none => true
  | some a => a = newline && !rest.isEmpty

def atLineEnd : List α → Bool
  | [] => true
  | a :: _ => a = newline

/-- What the groups take when the pattern matches at a place. -/
def matchAt : List (Piece α) → Option α → List α → Option (List (List α))
  | [], _, _ => some []
  | .lineStart :: ps, before, rest =>
      if atLineStart newline before rest then matchAt ps before rest else none
  | .lineEnd :: ps, before, rest =>
      if atLineEnd newline rest then matchAt ps before rest else none
  | .one _ :: _, _, [] => none
  | .one p :: ps, _, a :: rest => if p a then matchAt ps (some a) rest else none
  | .greedy p :: ps, before, rest =>
      (greedily p (matchAt ps) before rest).map fun m => m.1 :: m.2

/-- What the groups take at the first place where the pattern matches. -/
def search (ps : List (Piece α)) : Option α → List α → Option (List (List α))
  | before, [] => matchAt newline ps before []
  | before, a :: rest => (matchAt newline ps before (a :: rest)).or (search ps (some a) rest)

end Matching

/-! ## Groups -/

section Greedily

variable {p : α → Bool} {after : Option α → List α → Option β} {before : Option α}
  {rest taken : List α} {r : β}

theorem greedily_eq_some (h : greedily p after before rest = some (taken, r)) :
    ∃ suffix, rest = taken ++ suffix ∧ (∀ a ∈ taken, p a = true) ∧
      after (lastOf before taken) suffix = some r := by
  induction rest generalizing before taken with
  | nil =>
      obtain ⟨r', hr, htaken⟩ := Option.map_eq_some_iff.mp h
      obtain ⟨rfl, rfl⟩ := Prod.mk.inj htaken
      exact ⟨[], rfl, by simp, hr⟩
  | cons a rest ih =>
      rcases Option.or_eq_some_iff.mp h with hmore | ⟨-, hless⟩
      · split at hmore
        · rename_i hp
          obtain ⟨⟨taken', r'⟩, hm, htaken⟩ := Option.map_eq_some_iff.mp hmore
          obtain ⟨rfl, rfl⟩ := Prod.mk.inj htaken
          obtain ⟨suffix, rfl, hall, hafter⟩ := ih hm
          refine ⟨suffix, rfl, ?_, ?_⟩
          · exact List.forall_mem_cons.mpr ⟨hp, hall⟩
          · rwa [lastOf_cons]
        · cases hmore
      · obtain ⟨r', hr, htaken⟩ := Option.map_eq_some_iff.mp hless
        obtain ⟨rfl, rfl⟩ := Prod.mk.inj htaken
        exact ⟨a :: rest, rfl, by simp, hr⟩

theorem greedily_eq_none_iff :
    greedily p after before rest = none ↔ ∀ taken suffix, rest = taken ++ suffix →
      (∀ a ∈ taken, p a = true) → after (lastOf before taken) suffix = none := by
  constructor
  · induction rest generalizing before with
    | nil =>
        intro h taken suffix hrest _
        obtain ⟨rfl, rfl⟩ := List.append_eq_nil_iff.mp hrest.symm
        exact Option.map_eq_none_iff.mp h
    | cons a rest ih =>
        intro h taken suffix hrest hall
        obtain ⟨hmore, hless⟩ := Option.or_eq_none_iff.mp h
        cases taken with
        | nil =>
            rw [List.nil_append] at hrest
            rw [← hrest]
            exact Option.map_eq_none_iff.mp hless
        | cons b taken =>
            rw [List.cons_append, List.cons.injEq] at hrest
            obtain ⟨rfl, hrest⟩ := hrest
            obtain ⟨hp, hall⟩ := List.forall_mem_cons.mp hall
            rw [if_pos hp, Option.map_eq_none_iff] at hmore
            rw [lastOf_cons]
            exact ih hmore taken suffix hrest hall
  · intro h
    cases hm : greedily p after before rest with
    | none => rfl
    | some m =>
        obtain ⟨suffix, hrest, hall, hafter⟩ := greedily_eq_some hm
        cases hafter.symm.trans (h _ _ hrest hall)

/-- A group takes the most items with which the rest of the pattern matches. -/
theorem greedily_longest {suffix : List α} (hall : ∀ a ∈ taken, p a = true)
    (hafter : after (lastOf before taken) suffix = some r)
    (hlonger : ∀ more a suffix', suffix = more ++ a :: suffix' →
      after (lastOf (lastOf before taken) (more ++ [a])) suffix' = none) :
    greedily p after before (taken ++ suffix) = some (taken, r) := by
  induction taken generalizing before with
  | nil =>
      cases suffix with
      | nil =>
          rw [lastOf_nil] at hafter
          rw [List.nil_append, greedily, hafter]
          rfl
      | cons b suffix =>
          have hmore : greedily p after (some b) suffix = none := by
            rw [greedily_eq_none_iff]
            intro more suffix' hsuffix _
            rcases List.eq_nil_or_concat more with rfl | ⟨more, a, rfl⟩
            · simpa using hlonger [] b suffix' (by simpa using hsuffix)
            · simpa using hlonger (b :: more) a suffix' (by simpa using hsuffix)
          rw [lastOf_nil] at hafter
          rw [List.nil_append, greedily, hmore, hafter]
          simp
  | cons b taken ih =>
      obtain ⟨hp, hall⟩ := List.forall_mem_cons.mp hall
      rw [lastOf_cons] at hafter hlonger
      rw [List.cons_append, greedily, if_pos hp, ih hall hafter hlonger]
      rfl

end Greedily

/-! ## Where a pattern matches -/

section Fits

variable [DecidableEq α] {newline : α} {ps : List (Piece α)} {p : α → Bool} {before : Option α}
  {rest : List α}

/-- The pattern matches at this place. -/
def Fits (newline : α) (ps : List (Piece α)) (before : Option α) (rest : List α) : Prop :=
  ∃ groups, matchAt newline ps before rest = some groups

@[simp] theorem fits_nil : Fits newline [] before rest := ⟨[], rfl⟩

@[simp] theorem fits_lineStart_iff :
    Fits newline (.lineStart :: ps) before rest ↔
      atLineStart newline before rest = true ∧ Fits newline ps before rest := by
  rw [Fits, Fits, matchAt]
  split <;> simp_all

@[simp] theorem fits_lineEnd_iff :
    Fits newline (.lineEnd :: ps) before rest ↔
      atLineEnd newline rest = true ∧ Fits newline ps before rest := by
  rw [Fits, Fits, matchAt]
  split <;> simp_all

@[simp] theorem fits_one_iff :
    Fits newline (.one p :: ps) before rest ↔
      ∃ a rest', rest = a :: rest' ∧ p a = true ∧ Fits newline ps (some a) rest' := by
  cases rest with
  | nil => simp [Fits, matchAt]
  | cons a rest =>
      rw [Fits, matchAt]
      split <;> simp_all [Fits]

@[simp] theorem fits_greedy_iff :
    Fits newline (.greedy p :: ps) before rest ↔
      ∃ taken suffix, rest = taken ++ suffix ∧ (∀ a ∈ taken, p a = true) ∧
        Fits newline ps (lastOf before taken) suffix := by
  constructor
  · rintro ⟨groups, h⟩
    obtain ⟨⟨taken, groups'⟩, hm, -⟩ := Option.map_eq_some_iff.mp h
    obtain ⟨suffix, hrest, hall, hafter⟩ := greedily_eq_some hm
    exact ⟨taken, suffix, hrest, hall, groups', hafter⟩
  · rintro ⟨taken, suffix, hrest, hall, groups, hafter⟩
    cases hm : greedily p (matchAt newline ps) before rest with
    | none => cases hafter.symm.trans (greedily_eq_none_iff.mp hm taken suffix hrest hall)
    | some m => exact ⟨m.1 :: m.2, by rw [matchAt, hm]; rfl⟩

theorem search_eq_some {groups : List (List α)} {text : List α}
    (h : search newline ps before text = some groups) :
    ∃ skipped rest, text = skipped ++ rest ∧
      matchAt newline ps (lastOf before skipped) rest = some groups := by
  induction text generalizing before with
  | nil => exact ⟨[], [], rfl, h⟩
  | cons a text ih =>
      rcases Option.or_eq_some_iff.mp h with hfirst | ⟨-, hlater⟩
      · exact ⟨[], a :: text, rfl, hfirst⟩
      · obtain ⟨skipped, rest, rfl, hmatch⟩ := ih hlater
        refine ⟨a :: skipped, rest, rfl, ?_⟩
        rwa [lastOf_cons]

/-- A search finds nothing exactly when the pattern matches nowhere. -/
theorem search_eq_none_iff {text : List α} :
    search newline ps before text = none ↔
      ∀ skipped rest, text = skipped ++ rest → ¬ Fits newline ps (lastOf before skipped) rest := by
  constructor
  · induction text generalizing before with
    | nil =>
        rintro h skipped rest htext ⟨groups, hfits⟩
        obtain ⟨rfl, rfl⟩ := List.append_eq_nil_iff.mp htext.symm
        cases hfits.symm.trans h
    | cons a text ih =>
        rintro h skipped rest htext hfits
        obtain ⟨hfirst, hlater⟩ := Option.or_eq_none_iff.mp h
        cases skipped with
        | nil =>
            obtain ⟨groups, hmatch⟩ := hfits
            rw [List.nil_append] at htext
            rw [← htext, lastOf_nil, hfirst] at hmatch
            cases hmatch
        | cons b skipped =>
            rw [List.cons_append, List.cons.injEq] at htext
            obtain ⟨rfl, htext⟩ := htext
            rw [lastOf_cons] at hfits
            exact ih hlater skipped rest htext hfits
  · intro h
    cases hsearch : search newline ps before text with
    | none => rfl
    | some groups =>
        obtain ⟨skipped, rest, htext, hmatch⟩ := search_eq_some hsearch
        exact absurd ⟨groups, hmatch⟩ (h skipped rest htext)

/-- A match at the first place is found first. -/
theorem search_first {groups : List (List α)} {text : List α}
    (h : matchAt newline ps before text = some groups) :
    search newline ps before text = some groups := by
  cases text with
  | nil => exact h
  | cons a text => rw [search, h, Option.some_or]

end Fits

/-! ## Replacement -/

section Replacement

variable [DecidableEq α]

/-- The text with every occurrence of `pattern` replaced, from left to right, once so many items
are skipped. -/
def gsubFrom (pattern replacement : List α) : ℕ → List α → List α
  | _, [] => []
  | skip + 1, _ :: rest => gsubFrom pattern replacement skip rest
  | 0, a :: rest =>
      if pattern.isPrefixOf (a :: rest) then
        replacement ++ gsubFrom pattern replacement (pattern.length - 1) rest
      else a :: gsubFrom pattern replacement 0 rest

/-- `gsub`, for a pattern that is not empty. -/
def gsub (pattern replacement text : List α) : List α := gsubFrom pattern replacement 0 text

theorem countP_gsubFrom_le {pattern replacement : List α} {f : α → Bool}
    (hne : pattern ≠ []) (h : replacement.countP f ≤ pattern.countP f) (skip : ℕ)
    (text : List α) :
    (gsubFrom pattern replacement skip text).countP f ≤ (text.drop skip).countP f := by
  induction text generalizing skip with
  | nil => simp [gsubFrom]
  | cons a text ih =>
      cases skip with
      | succ skip => exact ih skip
      | zero =>
          rw [gsubFrom, List.drop_zero]
          split
          · rename_i hprefix
            obtain ⟨rest, hrest⟩ := List.isPrefixOf_iff_prefix.mp hprefix
            obtain ⟨b, pattern, rfl⟩ := List.exists_cons_of_ne_nil hne
            rw [List.cons_append, List.cons.injEq] at hrest
            obtain ⟨rfl, rfl⟩ := hrest
            have hlater := ih pattern.length
            rw [List.drop_left] at hlater
            calc (replacement ++ gsubFrom (b :: pattern) replacement
                    ((b :: pattern).length - 1) (pattern ++ rest)).countP f
                = replacement.countP f + (gsubFrom (b :: pattern) replacement pattern.length
                    (pattern ++ rest)).countP f := by
                  rw [List.countP_append, List.length_cons, Nat.add_sub_cancel]
              _ ≤ (b :: pattern).countP f + rest.countP f := Nat.add_le_add h hlater
              _ = (b :: (pattern ++ rest)).countP f := by
                  rw [← List.countP_append, List.cons_append]
          · have hlater := ih 0
            rw [List.drop_zero] at hlater
            rw [List.countP_cons, List.countP_cons]
            exact Nat.add_le_add_right hlater _

/-- A replacement with no more such items than the pattern adds none. -/
theorem countP_gsub_le {pattern replacement : List α} {f : α → Bool} (hne : pattern ≠ [])
    (h : replacement.countP f ≤ pattern.countP f) (text : List α) :
    (gsub pattern replacement text).countP f ≤ text.countP f :=
  countP_gsubFrom_le hne h 0 text

/-- An item that the text is quoted with, written twice. -/
def doubled (q : α) (text : List α) : List α := text.flatMap fun a => if a = q then [q, q] else [a]

theorem doubled_cons_of_ne {q a : α} (h : a ≠ q) (text : List α) :
    doubled q (a :: text) = a :: doubled q text := by
  rw [doubled, List.flatMap_cons, if_neg h]
  rfl

theorem doubled_cons_self (q : α) (text : List α) :
    doubled q (q :: text) = q :: q :: doubled q text := by
  rw [doubled, List.flatMap_cons, if_pos rfl]
  rfl

theorem doubled_append (q : α) (text text' : List α) :
    doubled q (text ++ text') = doubled q text ++ doubled q text' := List.flatMap_append

theorem doubled_eq_self {q : α} {text : List α} (h : q ∉ text) : doubled q text = text := by
  induction text with
  | nil => rfl
  | cons a text ih =>
      rw [List.mem_cons, not_or] at h
      rw [doubled_cons_of_ne (Ne.symm h.1), ih h.2]

theorem countP_doubled {q : α} {f : α → Bool} (h : f q = false) (text : List α) :
    (doubled q text).countP f = text.countP f := by
  induction text with
  | nil => rfl
  | cons a text ih =>
      by_cases ha : a = q
      · subst ha
        simp [doubled_cons_self, h, ih]
      · rw [doubled_cons_of_ne ha, List.countP_cons, List.countP_cons, ih]

theorem mem_doubled {q a : α} {text : List α} (h : a ∈ text) : a ∈ doubled q text := by
  refine List.mem_flatMap.mpr ⟨a, h, ?_⟩
  split
  · rename_i ha
    simp [ha]
  · exact List.mem_singleton_self a

theorem doubled_eq_nil_iff {q : α} {text : List α} : doubled q text = [] ↔ text = [] := by
  cases text with
  | nil => simp [doubled]
  | cons a text =>
      by_cases ha : a = q
      · simp [ha, doubled_cons_self]
      · simp [doubled_cons_of_ne ha]

/-- Another item stands in the text where it stands in the doubled one. -/
theorem doubled_split {q a : α} (ha : a ≠ q) {text before after : List α}
    (h : doubled q text = before ++ a :: after) :
    ∃ before' after', text = before' ++ a :: after' ∧ doubled q before' = before ∧
      doubled q after' = after := by
  induction text generalizing before with
  | nil => cases List.append_eq_nil_iff.mp h.symm |>.2
  | cons b text ih =>
      by_cases hb : b = q
      · subst hb
        rw [doubled_cons_self] at h
        match before, h with
        | [], h => exact absurd (List.cons.inj h).1.symm ha
        | [c], h =>
            simp only [List.cons_append, List.nil_append, List.cons.injEq] at h
            exact absurd h.2.1.symm ha
        | c :: d :: before, h =>
            simp only [List.cons_append, List.cons.injEq] at h
            obtain ⟨rfl, rfl, h⟩ := h
            obtain ⟨before', after', rfl, rfl, hafter⟩ := ih h
            exact ⟨b :: before', after', rfl, doubled_cons_self b before', hafter⟩
      · rw [doubled_cons_of_ne hb] at h
        match before, h with
        | [], h =>
            rw [List.nil_append, List.cons.injEq] at h
            obtain ⟨rfl, rfl⟩ := h
            exact ⟨[], text, rfl, rfl, rfl⟩
        | c :: before, h =>
            rw [List.cons_append, List.cons.injEq] at h
            obtain ⟨rfl, h⟩ := h
            obtain ⟨before', after', rfl, rfl, hafter⟩ := ih h
            exact ⟨b :: before', after', rfl, doubled_cons_of_ne hb before', hafter⟩

theorem gsub_doubled (q : α) (text : List α) : gsub [q, q] [q] (doubled q text) = text := by
  rw [gsub]
  induction text with
  | nil => rfl
  | cons a text ih =>
      by_cases ha : a = q
      · subst ha
        simp [doubled_cons_self, gsubFrom, ih]
      · have hprefix : [q, q].isPrefixOf (a :: doubled q text) = false := by
          simp [List.isPrefixOf, Ne.symm ha]
        rw [doubled_cons_of_ne ha, gsubFrom, hprefix, if_neg Bool.false_ne_true, ih]

/-- The replacement that doubles. -/
theorem gsub_eq_doubled (q : α) (text : List α) : gsub [q] [q, q] text = doubled q text := by
  rw [gsub]
  induction text with
  | nil => rfl
  | cons a text ih =>
      by_cases ha : a = q
      · subst ha
        simp [doubled_cons_self, gsubFrom, ih]
      · have hprefix : [q].isPrefixOf (a :: text) = false := by
          simp [List.isPrefixOf, Ne.symm ha]
        rw [doubled_cons_of_ne ha, gsubFrom, hprefix, if_neg Bool.false_ne_true, ih]

theorem doubled_injective (q : α) : Function.Injective (doubled q) :=
  Function.LeftInverse.injective (gsub_doubled q)

/-- After the first `q` of a text, its doubled text is ahead by one `q` for each. -/
theorem replicate_doubled_ne {q : α} {text rest rest' : List α} (hrest : rest'.head? ≠ some q)
    (k : ℕ) :
    List.replicate (k + 1) q ++ doubled q text ++ q :: rest ≠ text ++ q :: rest' := by
  induction text generalizing k with
  | nil =>
      intro h
      rw [List.replicate_succ, List.cons_append, List.cons_append, List.nil_append,
        List.cons.injEq] at h
      apply hrest
      rw [← h.2]
      cases k with
      | zero => rfl
      | succ k => rfl
  | cons a text ih =>
      intro h
      rw [List.replicate_succ, List.cons_append, List.cons_append, List.cons_append,
        List.cons.injEq] at h
      obtain ⟨rfl, h⟩ := h
      apply ih (k + 1)
      rw [← h, doubled_cons_self, List.replicate_succ', List.replicate_succ']
      simp

/-- A text with a `q` in it does not read as its own doubled text. -/
theorem doubled_ne_of_mem {q : α} {text rest rest' : List α} (hq : q ∈ text)
    (hrest : rest'.head? ≠ some q) : doubled q text ++ q :: rest ≠ text ++ q :: rest' := by
  induction text with
  | nil => cases hq
  | cons a text ih =>
      by_cases ha : a = q
      · subst ha
        intro h
        rw [doubled_cons_self, List.cons_append, List.cons_append, List.cons_append,
          List.cons.injEq] at h
        exact replicate_doubled_ne hrest 0 h.2
      · intro h
        rw [doubled_cons_of_ne ha, List.cons_append, List.cons_append, List.cons.injEq] at h
        exact ih (List.mem_of_ne_of_mem (Ne.symm ha) hq) h.2

end Replacement

end Regex
