import Sqlite3Ruby.FirstValue
import Sqlite3Ruby.Lib.Regex

/-!
# Column defaults

SQLite reports the source text of a default. `tweak_default` takes the quotes off with three
patterns, whose anchors stand at every line of the text.

## Implementation notes

The strings of a row are UTF-8 or binary.
-/

namespace Sqlite3Ruby.Query

open Regex

abbrev apostrophe : Char := '\x27'

abbrev quotationMark : Char := '\x22'

/-! ## `tweak_default` -/

/-- `/^null$/i` -/
def nullPattern : List (Piece Char) :=
  [.lineStart, .one (·.toLower = 'n'), .one (·.toLower = 'u'), .one (·.toLower = 'l'),
    .one (·.toLower = 'l'), .lineEnd]

/-- `/^Q(.*)Q$/m`, for a quote `Q`. -/
def quotedPattern (quote : Char) : List (Piece Char) :=
  [.lineStart, .one (· = quote), .greedy fun _ => true, .one (· = quote), .lineEnd]

/-- `$1.gsub("QQ", "Q")`. -/
def undoubled (quote : Char) (groups : List (List Char)) : List Char :=
  gsub [quote, quote] [quote] (groups.headD [])

def chars (s : RString) : List Char :=
  match s.encoding with
  | .utf8 => (Utf8.decode s.bytes).getD []
  | _ => s.bytes.map fun b => Char.ofNat b.toNat

/-- A string of the same encoding. -/
def withChars (s : RString) (cs : List Char) : RString :=
  { s with
    klass := .string
    bytes := match s.encoding with
      | .utf8 => Utf8.encode cs
      | _ => cs.map fun c => UInt8.ofNat c.toNat }

/-- `tweak_default`. -/
def tweakDefault (hash : List (String × Value)) : Outcome (List (String × Value)) :=
  match hashAref hash "dflt_value" with
  | some (.string s) =>
      if s.isBroken then .raise ⟨.ArgumentError, "invalid byte sequence in " ++ s.encoding.name⟩
      else
        let chars := chars s
        if (search '\n' nullPattern none chars).isSome then .ok (hashAset hash "dflt_value" .nil)
        else
          match search '\n' (quotedPattern apostrophe) none chars with
          | some groups =>
              let string := withChars s (undoubled apostrophe groups)
              .ok (hashAset hash "dflt_value" (.string string))
          | none =>
              match search '\n' (quotedPattern quotationMark) none chars with
              | some groups =>
                  let string := withChars s (undoubled quotationMark groups)
                  .ok (hashAset hash "dflt_value" (.string string))
              | none => .ok hash
  | _ => .ok hash

/-! ## Defaults -/

/-- A text begins where a line does. -/
def LineStart (before : List Char) : Prop := before = [] ∨ before.getLast? = some '\n'

/-- A line ends before a text. -/
def LineEnd (after : List Char) : Prop := after = [] ∨ after.head? = some '\n'

/-- The word is `null`, in letters of either case. -/
def IsNull (word : List Char) : Prop := word.map Char.toLower = ['n', 'u', 'l', 'l']

/-- A line of the text reads null. -/
def NullLine (text : List Char) : Prop :=
  ∃ before word after, text = before ++ (word ++ after) ∧ LineStart before ∧ IsNull word ∧
    LineEnd after

/-- A line of the text begins with a quote, and this or a later one ends with another. -/
def QuotedLines (quote : Char) (text : List Char) : Prop :=
  ∃ before inner after, text = before ++ quote :: (inner ++ quote :: after) ∧ LineStart before ∧
    LineEnd after

/-- The literal of a string, with one of the two quotes. -/
def sqlQuoted (quote : Char) (s : List Char) : List Char := quote :: (doubled quote s ++ [quote])

/-- The default of a column. -/
inductive Default
  | absent
  | null (word : List Char) (h : IsNull word)
  | single (s : List Char)
  | double (s : List Char)
  | expression (text : List Char) (hnull : ¬ IsNull text)
      (hother : ∀ s, text ≠ sqlQuoted apostrophe s ∧ text ≠ sqlQuoted quotationMark s)

/-- The source text of the expression. -/
def Default.source : Default → Option (List Char)
  | absent => none
  | null word _ => some word
  | single s => some (sqlQuoted apostrophe s)
  | double s => some (sqlQuoted quotationMark s)
  | expression text _ _ => some text

/-- What `table_info` is to report. -/
def Default.meant : Default → Option (List Char)
  | absent => none
  | null _ _ => none
  | single s => some s
  | double s => some s
  | expression text _ _ => some text

/-- A line between two others reads null. -/
def InnerNullLine (s : List Char) : Prop :=
  ∃ before word after, s = before ++ '\n' :: (word ++ '\n' :: after) ∧ IsNull word

/-- A line that is not the first begins with an apostrophe, and one that is not the last ends
with another. -/
def InnerQuotedLines (s : List Char) : Prop :=
  ∃ before inner after,
    s = before ++ '\n' :: apostrophe :: (inner ++ apostrophe :: '\n' :: after)

/-- No pattern stands in a line of the text where it does not belong. -/
def Default.Plain : Default → Prop
  | absent => True
  | null _ _ => True
  | single s => ¬ InnerNullLine s
  | double s => ¬ InnerNullLine s ∧ ¬ InnerQuotedLines s
  | expression text _ _ =>
      ¬ NullLine text ∧ ¬ QuotedLines apostrophe text ∧ ¬ QuotedLines quotationMark text

/-! ## What the patterns find -/

theorem atLineStart_iff {before : List Char} {c : Char} {rest : List Char} :
    atLineStart '\n' (lastOf none before) (c :: rest) = true ↔ LineStart before := by
  rw [LineStart, lastOf, Option.or_none]
  cases h : before.getLast? with
  | none => simp [atLineStart, List.getLast?_eq_none_iff.mp h]
  | some d =>
      have hne : before ≠ [] := by
        rintro rfl
        cases h
      simp [atLineStart, hne]

theorem atLineEnd_iff {after : List Char} : atLineEnd '\n' after = true ↔ LineEnd after := by
  cases after <;> simp [atLineEnd, LineEnd]

/-- `/^null$/i` is found exactly in a text with a line that reads null. -/
theorem search_null_iff {text : List Char} :
    (search '\n' nullPattern none text).isSome = true ↔ NullLine text := by
  rw [← Option.ne_none_iff_isSome, Ne, search_eq_none_iff, NullLine]
  push Not
  constructor
  · rintro ⟨before, rest, rfl, hfits⟩
    simp only [nullPattern, fits_lineStart_iff, fits_one_iff, fits_lineEnd_iff, fits_nil,
      and_true, decide_eq_true_eq] at hfits
    obtain ⟨hstart, a, _, rfl, ha, b, _, rfl, hb, c, _, rfl, hc, d, after, rfl, hd, hend⟩ := hfits
    exact ⟨before, [a, b, c, d], after, rfl, atLineStart_iff.mp hstart, by simp [IsNull, *],
      atLineEnd_iff.mp hend⟩
  · rintro ⟨before, word, after, rfl, hstart, hword, hend⟩
    obtain ⟨a, b, c, d, rfl⟩ : ∃ a b c d, word = [a, b, c, d] :=
      List.length_eq_four.mp (by simpa using congrArg List.length hword)
    refine ⟨before, _, rfl, ?_⟩
    simp only [IsNull, List.map_cons, List.map_nil, List.cons.injEq, and_true] at hword
    simp only [nullPattern, fits_lineStart_iff, fits_one_iff, fits_lineEnd_iff, fits_nil,
      and_true, decide_eq_true_eq]
    obtain ⟨ha, hb, hc, hd⟩ := hword
    exact ⟨atLineStart_iff.mpr hstart, a, _, rfl, ha, b, _, rfl, hb, c, _, rfl, hc, d, _, rfl, hd,
      atLineEnd_iff.mpr hend⟩

/-- `/^Q(.*)Q$/m` is found exactly in a text with a quoted part between a start and an end
of lines. -/
theorem search_quoted_eq_none_iff {quote : Char} {text : List Char} :
    search '\n' (quotedPattern quote) none text = none ↔ ¬ QuotedLines quote text := by
  rw [← not_iff_not, not_not, search_eq_none_iff, QuotedLines]
  push Not
  constructor
  · rintro ⟨before, rest, rfl, hfits⟩
    simp only [quotedPattern, fits_lineStart_iff, fits_one_iff, fits_greedy_iff, fits_lineEnd_iff,
      fits_nil, and_true, decide_eq_true_eq] at hfits
    obtain ⟨hstart, _, _, rfl, rfl, inner, _, rfl, -, _, after, rfl, rfl, hend⟩ := hfits
    exact ⟨before, inner, after, rfl, atLineStart_iff.mp hstart, atLineEnd_iff.mp hend⟩
  · rintro ⟨before, inner, after, rfl, hstart, hend⟩
    refine ⟨before, _, rfl, ?_⟩
    simp only [quotedPattern, fits_lineStart_iff, fits_one_iff, fits_greedy_iff, fits_lineEnd_iff,
      fits_nil, and_true, decide_eq_true_eq]
    exact ⟨atLineStart_iff.mpr hstart, quote, _, rfl, rfl, inner, _, rfl, by simp, quote, after,
      rfl, rfl, atLineEnd_iff.mpr hend⟩

theorem matchAt_quoted {quote : Char} {before : Option Char} {rest : List Char}
    {groups : List (List Char)}
    (h : matchAt '\n' (quotedPattern quote) before rest = some groups) :
    atLineStart '\n' before rest = true ∧ ∃ inner after, rest = quote :: (inner ++ quote :: after) ∧
      groups = [inner] ∧ LineEnd after := by
  rw [quotedPattern, matchAt] at h
  split at h
  · rename_i hstart
    refine ⟨hstart, ?_⟩
    cases rest with
    | nil => cases h
    | cons c rest =>
        rw [matchAt] at h
        split at h
        · rename_i hquote
          obtain ⟨⟨inner, groups'⟩, hgreedy, rfl⟩ := Option.map_eq_some_iff.mp h
          obtain ⟨suffix, rfl, -, hafter⟩ := greedily_eq_some hgreedy
          cases suffix with
          | nil => cases hafter
          | cons d after =>
              rw [matchAt] at hafter
              split at hafter
              · rename_i hquote'
                rw [matchAt] at hafter
                split at hafter
                · rename_i hend
                  obtain rfl := Option.some.inj hafter
                  obtain rfl := of_decide_eq_true hquote
                  obtain rfl := of_decide_eq_true hquote'
                  exact ⟨inner, after, rfl, rfl, atLineEnd_iff.mp hend⟩
                · cases hafter
              · cases hafter
        · cases h
  · cases h

/-- What is found is quoted, between a start and an end of lines. -/
theorem search_quoted_eq_some {quote : Char} {text : List Char} {groups : List (List Char)}
    (h : search '\n' (quotedPattern quote) none text = some groups) :
    ∃ before inner after, text = before ++ quote :: (inner ++ quote :: after) ∧
      LineStart before ∧ groups = [inner] := by
  obtain ⟨before, rest, rfl, hmatch⟩ := search_eq_some h
  obtain ⟨hstart, inner, after, rfl, hgroups, -⟩ := matchAt_quoted hmatch
  exact ⟨before, inner, after, rfl, atLineStart_iff.mp hstart, hgroups⟩

/-- In a text between two quotes the group is all that is between them. -/
theorem search_quoted_whole (quote : Char) (inner : List Char) :
    search '\n' (quotedPattern quote) none (quote :: (inner ++ [quote])) = some [inner] := by
  apply search_first
  have hgreedy : greedily (fun _ => true) (matchAt '\n' [.one (· = quote), .lineEnd]) (some quote)
      (inner ++ [quote]) = some (inner, []) := by
    apply greedily_longest
    · exact fun _ _ => rfl
    · simp [matchAt, atLineEnd]
    · intro more a suffix hsuffix
      obtain ⟨rfl, rfl, rfl⟩ : more = [] ∧ a = quote ∧ suffix = [] := by
        cases more <;> simp_all
      rfl
  simp [quotedPattern, matchAt, atLineStart, hgreedy]

/-! ## What is reported -/

/-- What `tweak_default` makes of a text. -/
def unquoted (text : List Char) : Option (List Char) :=
  if (search '\n' nullPattern none text).isSome then none
  else
    match search '\n' (quotedPattern apostrophe) none text with
    | some groups => some (undoubled apostrophe groups)
    | none =>
        match search '\n' (quotedPattern quotationMark) none text with
        | some groups => some (undoubled quotationMark groups)
        | none => some text

theorem unquoted_null {text : List Char} (h : NullLine text) : unquoted text = none := by
  rw [unquoted, if_pos (search_null_iff.mpr h)]

theorem unquoted_apostrophe {text : List Char} {groups : List (List Char)}
    (hnull : ¬ NullLine text)
    (h : search '\n' (quotedPattern apostrophe) none text = some groups) :
    unquoted text = some (undoubled apostrophe groups) := by
  rw [unquoted, if_neg (search_null_iff.not.mpr hnull), h]

theorem unquoted_quotationMark {text : List Char} {groups : List (List Char)}
    (hnull : ¬ NullLine text) (hquoted : ¬ QuotedLines apostrophe text)
    (h : search '\n' (quotedPattern quotationMark) none text = some groups) :
    unquoted text = some (undoubled quotationMark groups) := by
  rw [unquoted, if_neg (search_null_iff.not.mpr hnull), search_quoted_eq_none_iff.mpr hquoted, h]

theorem unquoted_other {text : List Char} (hnull : ¬ NullLine text)
    (hquoted : ¬ QuotedLines apostrophe text) (hquoted' : ¬ QuotedLines quotationMark text) :
    unquoted text = some text := by
  rw [unquoted, if_neg (search_null_iff.not.mpr hnull), search_quoted_eq_none_iff.mpr hquoted,
    search_quoted_eq_none_iff.mpr hquoted']

/-- What is taken out of quotes has no more of any character. -/
theorem countP_undoubled_le (f : Char → Bool) (quote : Char) (inner : List Char) :
    (undoubled quote [inner]).countP f ≤ inner.countP f := by
  apply countP_gsub_le
  · exact List.cons_ne_nil _ _
  · rw [List.countP_cons, List.countP_cons, List.countP_nil]
    omega

/-- A text is left as it is exactly when no pattern is found in it. -/
theorem unquoted_eq_self_iff (text : List Char) :
    unquoted text = some text ↔
      ¬ NullLine text ∧ ¬ QuotedLines apostrophe text ∧ ¬ QuotedLines quotationMark text := by
  have hshorter {quote : Char} {groups : List (List Char)}
      (h : search '\n' (quotedPattern quote) none text = some groups) :
      undoubled quote groups ≠ text := by
    obtain ⟨before, inner, after, htext, -, rfl⟩ := search_quoted_eq_some h
    intro hsame
    have hle := countP_undoubled_le (fun _ => true) quote inner
    rw [hsame, htext] at hle
    simp at hle
    omega
  constructor
  · intro hsame
    have hnull : ¬ NullLine text := by
      intro hnull
      cases (unquoted_null hnull).symm.trans hsame
    refine ⟨hnull, ?_⟩
    cases happ : search '\n' (quotedPattern apostrophe) none text with
    | some groups =>
        exact absurd (Option.some.inj ((unquoted_apostrophe hnull happ).symm.trans hsame))
          (hshorter happ)
    | none =>
        have hquoted := search_quoted_eq_none_iff.mp happ
        refine ⟨hquoted, ?_⟩
        cases hmark : search '\n' (quotedPattern quotationMark) none text with
        | some groups =>
            have hreported := unquoted_quotationMark hnull hquoted hmark
            exact absurd (Option.some.inj (hreported.symm.trans hsame)) (hshorter hmark)
        | none => exact search_quoted_eq_none_iff.mp hmark
  · rintro ⟨hnull, hquoted, hquoted'⟩
    exact unquoted_other hnull hquoted hquoted'

/-- `'a' || 'b'` is reported as `a' || 'b`. -/
example : unquoted ['\x27', 'a', '\x27', ' ', '|', '|', ' ', '\x27', 'b', '\x27'] =
    some ['a', '\x27', ' ', '|', '|', ' ', '\x27', 'b'] := by decide

/-! ## Literals -/

theorem lineStart_cons_iff {c : Char} {before : List Char} :
    LineStart (c :: before) ↔ ∃ before', c :: before = before' ++ ['\n'] := by
  rw [LineStart, List.getLast?_eq_some_iff]
  simp

theorem lineEnd_iff {after : List Char} (h : after ≠ []) :
    LineEnd after ↔ ∃ after', after = '\n' :: after' := by
  rw [LineEnd, or_iff_right h, List.head?_eq_some_iff]

theorem IsNull.not_mem {word : List Char} (h : IsNull word) {c : Char}
    (hc : c.toLower ∉ ['n', 'u', 'l', 'l']) : c ∉ word := by
  intro hmem
  have hlower : c.toLower ∈ word.map Char.toLower := List.mem_map_of_mem hmem
  rw [h] at hlower
  exact hc hlower

theorem IsNull.ne_nil {word : List Char} (h : IsNull word) : word ≠ [] := by
  rintro rfl
  cases h

/-- In a literal, what takes up lines and has not its quotes at its ends stands between two
newlines of the string. -/
theorem inside_literal {quote : Char} (hquote : quote ≠ '\n') {s before part after : List Char}
    (h : sqlQuoted quote s = before ++ (part ++ after)) (hne : part ≠ [])
    (hhead : part.head? ≠ some quote) (hlast : part.getLast? ≠ some quote)
    (hstart : LineStart before) (hend : LineEnd after) :
    ∃ before' after', doubled quote s = before' ++ '\n' :: (part ++ '\n' :: after') ∧
      before = quote :: (before' ++ ['\n']) := by
  cases before with
  | nil =>
      have hsame := congrArg List.head? h
      rw [List.nil_append, List.head?_append_of_ne_nil _ hne] at hsame
      exact absurd hsame.symm hhead
  | cons c before =>
      rw [sqlQuoted, List.cons_append, List.cons.injEq] at h
      obtain ⟨rfl, h⟩ := h
      obtain ⟨before', hbefore⟩ := lineStart_cons_iff.mp hstart
      cases before' with
      | nil => exact absurd (List.cons.inj hbefore).1 hquote
      | cons c' before' =>
          rw [List.cons_append, List.cons.injEq] at hbefore
          obtain ⟨rfl, rfl⟩ := hbefore
          rcases List.eq_nil_or_concat after with rfl | ⟨after, d, rfl⟩
          · have hsame := congrArg List.getLast? h
            rw [List.append_nil, List.getLast?_concat, List.getLast?_append_of_ne_nil _ hne] at hsame
            exact absurd hsame.symm hlast
          · obtain ⟨after', hafter⟩ := (lineEnd_iff (by simp)).mp hend
            rw [List.concat_eq_append] at h hafter
            rw [← List.append_assoc, ← List.append_assoc] at h
            obtain ⟨hinner, hd⟩ := List.append_inj' h rfl
            obtain rfl := (List.singleton_inj.mp hd)
            cases after with
            | nil => exact absurd (List.cons.inj hafter).1 hquote
            | cons e after =>
                obtain rfl : e = '\n' := (List.cons.inj hafter).1
                refine ⟨before', after, ?_, rfl⟩
                rw [hinner]
                simp

/-- A line of a literal reads null exactly when an inner line of the string does. -/
theorem nullLine_literal_iff (quote : Char) (hquote : quote ≠ '\n')
    (hlower : quote.toLower ∉ ['n', 'u', 'l', 'l']) (s : List Char) :
    NullLine (sqlQuoted quote s) ↔ InnerNullLine s := by
  constructor
  · rintro ⟨before, word, after, htext, hstart, hword, hend⟩
    have hmem := hword.not_mem hlower
    obtain ⟨before', after', hs, -⟩ := inside_literal hquote htext hword.ne_nil
      (fun h => hmem (List.mem_of_head? h)) (fun h => hmem (List.mem_of_getLast? h)) hstart hend
    obtain ⟨front, rest, rfl, -, hrest⟩ := doubled_split hquote.symm hs
    obtain ⟨word', back, rfl, hword', -⟩ := doubled_split hquote.symm hrest
    have hsame : doubled quote word' = word' :=
      doubled_eq_self fun hmem' => hmem (hword' ▸ mem_doubled hmem')
    obtain rfl : word' = word := hsame.symm.trans hword'
    exact ⟨front, word', back, rfl, hword⟩
  · rintro ⟨front, word, back, rfl, hword⟩
    refine ⟨quote :: (doubled quote front ++ ['\n']), word,
      '\n' :: (doubled quote back ++ [quote]), ?_, ?_, hword, Or.inr rfl⟩
    · have hsame := doubled_eq_self (hword.not_mem hlower)
      rw [sqlQuoted, doubled_append, doubled_cons_of_ne hquote.symm, doubled_append, hsame,
        doubled_cons_of_ne hquote.symm]
      simp
    · exact lineStart_cons_iff.mpr ⟨quote :: doubled quote front, rfl⟩

/-- A quoted part of lines of a double-quoted literal is one of inner lines of the string. -/
theorem quotedLines_double_iff (s : List Char) :
    QuotedLines apostrophe (sqlQuoted quotationMark s) ↔ InnerQuotedLines s := by
  have hnewline : '\n' ≠ quotationMark := by decide
  have happ : apostrophe ≠ quotationMark := by decide
  constructor
  · rintro ⟨before, inner, after, htext, hstart, hend⟩
    have hpart : sqlQuoted quotationMark s =
        before ++ ((apostrophe :: inner ++ [apostrophe]) ++ after) := by
      rw [htext]
      simp
    have hlast : (apostrophe :: inner ++ [apostrophe]).getLast? ≠ some quotationMark := by
      rw [List.getLast?_concat]
      simpa using happ
    obtain ⟨before', after', hs, -⟩ := inside_literal hnewline.symm hpart (List.cons_ne_nil _ _)
      (by simpa using happ) hlast hstart hend
    obtain ⟨front, rest, rfl, -, hrest⟩ := doubled_split hnewline hs
    replace hrest : doubled quotationMark rest =
        [] ++ apostrophe :: (inner ++ apostrophe :: ([] ++ '\n' :: after')) := by
      rw [hrest]
      simp
    obtain ⟨nothing, rest', rfl, hnothing, hrest'⟩ := doubled_split happ hrest
    obtain ⟨inner', back, rfl, -, hback⟩ := doubled_split happ hrest'
    obtain ⟨nothing', back', rfl, hnothing', -⟩ := doubled_split hnewline hback
    obtain rfl := doubled_eq_nil_iff.mp hnothing
    obtain rfl := doubled_eq_nil_iff.mp hnothing'
    exact ⟨front, inner', back', rfl⟩
  · rintro ⟨front, inner, back, rfl⟩
    refine ⟨quotationMark :: (doubled quotationMark front ++ ['\n']), doubled quotationMark inner,
      '\n' :: (doubled quotationMark back ++ [quotationMark]), ?_, ?_, Or.inr rfl⟩
    · rw [sqlQuoted, doubled_append, doubled_cons_of_ne hnewline, doubled_cons_of_ne happ,
        doubled_append, doubled_cons_of_ne happ, doubled_cons_of_ne hnewline]
      simp
    · exact lineStart_cons_iff.mpr ⟨quotationMark :: doubled quotationMark front, rfl⟩

/-- A single-quoted literal is undone exactly when no inner line of the string reads null. -/
theorem unquoted_single_iff (s : List Char) :
    unquoted (sqlQuoted apostrophe s) = some s ↔ ¬ InnerNullLine s := by
  rw [← nullLine_literal_iff apostrophe (by decide) (by decide) s]
  constructor
  · intro hsame hnull
    cases (unquoted_null hnull).symm.trans hsame
  · intro hnull
    rw [unquoted_apostrophe hnull (search_quoted_whole apostrophe _)]
    exact congrArg some (gsub_doubled apostrophe s)

/-- A double-quoted literal is undone exactly when, besides, no inner lines of the string are
quoted with apostrophes. -/
theorem unquoted_double_iff (s : List Char) :
    unquoted (sqlQuoted quotationMark s) = some s ↔ ¬ InnerNullLine s ∧ ¬ InnerQuotedLines s := by
  rw [← nullLine_literal_iff quotationMark (by decide) (by decide) s,
    ← quotedLines_double_iff]
  constructor
  · intro hsame
    have hnull : ¬ NullLine (sqlQuoted quotationMark s) := by
      intro hnull
      cases (unquoted_null hnull).symm.trans hsame
    refine ⟨hnull, ?_⟩
    rw [← search_quoted_eq_none_iff]
    cases hfound : search '\n' (quotedPattern apostrophe) none (sqlQuoted quotationMark s) with
    | none => rfl
    | some groups =>
        -- the newline before the quoted part is not reported
        obtain ⟨before, inner, after, htext, hstart, rfl⟩ := search_quoted_eq_some hfound
        have hreported := (unquoted_apostrophe hnull hfound).symm.trans hsame
        have hle := countP_undoubled_le (· = '\n') apostrophe inner
        rw [Option.some.inj hreported] at hle
        have hbefore : 1 ≤ before.countP (· = '\n') := by
          cases before with
          | nil => exact absurd (List.cons.inj htext).1 (by decide)
          | cons c before =>
              obtain ⟨before', hbefore⟩ := lineStart_cons_iff.mp hstart
              rw [hbefore]
              simp
        have hliteral : (sqlQuoted quotationMark s).countP (· = '\n') = s.countP (· = '\n') := by
          rw [sqlQuoted, List.countP_cons_of_neg (by decide), List.countP_append,
            countP_doubled (by decide)]
          rfl
        rw [htext, List.countP_append, List.countP_cons_of_neg (by decide), List.countP_append]
          at hliteral
        omega
  · rintro ⟨hnull, hquoted⟩
    rw [unquoted_quotationMark hnull hquoted (search_quoted_whole quotationMark _)]
    exact congrArg some (gsub_doubled quotationMark s)

end Sqlite3Ruby.Query
