import Sqlite3Ruby.Lib.SqlLexer
import Sqlite3Ruby.Query

/-!
# Strings in the text of a statement

`Database.quote` doubles the quotes of a string. `get_query_pragma` puts its
parameters between quotes as they are.
-/

namespace Sqlite3Ruby.Query

open SqlLexer

/-- `Database.quote`. -/
def quote (string : List Char) : List Char := Regex.gsub ['\x27'] ['\x27', '\x27'] string

theorem quote_eq_doubled (string : List Char) : quote string = Regex.doubled '\x27' string :=
  Regex.gsub_eq_doubled '\x27' string

/-- A quoted string between quotes is one literal, with the string as its value. -/
theorem lex_quote :
    (∀ before string after : List Char, Complete before →
      (∀ c ∈ before.getLast?, isSeparator c = true) → '\x00' ∉ string →
      after.head? ≠ some '\x27' →
      lex (before ++ ('\x27' :: quote string ++ '\x27' :: after)) =
        lex before ++ .string string :: lex after) ∧
    Function.Injective quote := by
  constructor
  · intro before string after hcomplete hend hnul hafter
    rw [quote_eq_doubled]
    exact lex_append_literal hcomplete hend hnul hafter
  · have hquote : quote = Regex.doubled '\x27' := funext quote_eq_doubled
    rw [hquote]
    exact Regex.doubled_injective '\x27'

/-- With quotes at both ends of the string. -/
theorem lex_quote_ends :
    lex ("VALUES (".toList ++ ('\x27' :: quote "'it''s'".toList ++ '\x27' :: ")".toList)) =
      lex "VALUES (".toList ++ .string "'it''s'".toList :: lex ")".toList := by
  have hlast : "VALUES (".toList.getLast? = some '(' := by decide
  refine lex_quote.1 "VALUES (".toList "'it''s'".toList ")".toList (by decide) ?_ (by decide)
    (by decide)
  intro c hc
  obtain rfl : '(' = c := Option.some.inj (hlast.symm.trans hc)
  rfl

/-! ## The text of `get_query_pragma` -/

/-- The name of a pragma, with the schema it is asked of. -/
structure PragmaName where
  schema : Option Word
  name : Word

namespace PragmaName

def text (pragma : PragmaName) : List Char :=
  match pragma.schema with
  | none => pragma.name.text
  | some schema => schema.text ++ '.' :: pragma.name.text

def tokens (pragma : PragmaName) : List Token :=
  match pragma.schema with
  | none => [.word pragma.name.text]
  | some schema => [.word schema.text, .operator ['.'], .word pragma.name.text]

end PragmaName

/-- The pragma applied to a list of values. -/
def pragmaCall (pragma : PragmaName) (values : List (List Char)) : List Token :=
  .word "PRAGMA".toList :: pragma.tokens ++ .operator ['('] ::
    (values.map Token.string).intersperse (.operator [',']) ++ [.operator [')']]

/-- The tokens of a text in UTF-8. -/
def lexBytes (bytes : List UInt8) : Option (List Token) := (Utf8.decode bytes).map lex

/-- The characters of the text of `get_query_pragma`. -/
def queryPragmaChars (name : List Char) (params : List (List Char)) : List Char :=
  "PRAGMA ".toList ++ (name ++ "( '".toList ++ "','".toList.intercalate params ++
    "' )".toList)

theorem queryPragmaText_bytes (name : List UInt8) {params : List (List UInt8)}
    (hparams : params ≠ []) :
    (queryPragmaText name params).bytes =
      "PRAGMA ".toUTF8.toList ++ (name ++ "( '".toUTF8.toList ++
        "','".toUTF8.toList.intercalate params ++ "' )".toUTF8.toList) := by
  cases params with
  | nil => exact absurd rfl hparams
  | cons p params =>
    rw [queryPragmaText, List.isEmpty_cons, if_neg Bool.false_ne_true, pragmaText, utf8String]

theorem queryPragmaText_encode (name : List Char) {params : List (List Char)}
    (hparams : params ≠ []) :
    (queryPragmaText (Utf8.encode name) (params.map Utf8.encode)).bytes =
      Utf8.encode (queryPragmaChars name params) := by
  rw [queryPragmaText_bytes _ (by simpa using hparams)]
  unfold queryPragmaChars
  rw [Utf8.encode_append, Utf8.encode_append, Utf8.encode_append, Utf8.encode_append,
    Utf8.encode_intercalate, Utf8.toUTF8_toList "( '", Utf8.toUTF8_toList "' )",
    Utf8.toUTF8_toList "','", Utf8.toUTF8_toList "PRAGMA "]

/-! ## The tokens of the text -/

/-- What stands after the text of a parameter. -/
def afterParam : List (List Char) → List Char
  | [] => ['\x27', ' ', ')']
  | p :: params => '\x27' :: ',' :: '\x27' :: (p ++ afterParam params)

theorem intercalate_eq (p : List Char) (params : List (List Char)) :
    "','".toList.intercalate (p :: params) ++ "' )".toList = p ++ afterParam params := by
  have hbetween : "','".toList = ['\x27', ',', '\x27'] := rfl
  have hclose : "' )".toList = ['\x27', ' ', ')'] := rfl
  rw [hbetween, hclose]
  induction params generalizing p with
  | nil => simp [afterParam]
  | cons q params ih =>
    rw [List.intercalate_cons_cons, List.append_assoc, ih, afterParam]
    simp

theorem afterParam_ne_quote (params : List (List Char)) :
    ∃ rest, afterParam params = '\x27' :: rest ∧ rest.head? ≠ some '\x27' := by
  cases params with
  | nil => exact ⟨_, rfl, by decide⟩
  | cons p params =>
    refine ⟨_, rfl, ?_⟩
    rw [List.head?_cons]
    decide

/-- A comma or a parenthesis, then the literal that follows. -/
theorem lex_single {c : Char} (hc : c = ',' ∨ c = '(' ∨ c = ')') (rest : List Char) :
    lex (c :: rest) = .operator [c] :: lex rest := by
  have hstep : lexer.step .start c = ([.operator [c]], .start) := by
    obtain rfl | rfl | rfl := hc <;> rfl
  rw [lex, lexer.output_cons, hstep]
  rfl

/-- The name, in front of something that does not go on with it. -/
theorem PragmaName.lex_append (pragma : PragmaName) {c : Char} (hid : isIdChar c = false)
    (hquote : c ≠ '\x27') (rest : List Char) :
    lex (pragma.text ++ c :: rest) = pragma.tokens ++ lex (c :: rest) := by
  rw [text, tokens]
  cases pragma.schema with
  | none => exact pragma.name.lex_append hid hquote rest
  | some schema =>
    rw [List.append_assoc, List.cons_append, schema.lex_append (by decide) (by decide),
      pragma.name.lex_dot, pragma.name.lex_append hid hquote]
    rfl

theorem PragmaName.text_eq_cons (pragma : PragmaName) :
    ∃ c rest, pragma.text = c :: rest ∧ SqlLexer.isSpace c = false := by
  rw [text]
  cases pragma.schema with
  | none => exact ⟨_, _, rfl, isSpace_of_isWordStart pragma.name.isStart.1⟩
  | some schema => exact ⟨_, _, rfl, isSpace_of_isWordStart schema.isStart.1⟩

/-- The word at the head of the text. -/
def pragmaWord : Word := ⟨'P', "RAGMA".toList, by decide, List.all_eq_true.mp (by decide)⟩

theorem queryPragmaChars_eq (name p : List Char) (params : List (List Char)) :
    queryPragmaChars name (p :: params) =
      pragmaWord.text ++ ' ' :: (name ++ '(' :: ' ' :: '\x27' :: (p ++ afterParam params)) := by
  unfold queryPragmaChars
  rw [List.append_assoc, intercalate_eq, List.append_assoc]
  rfl

/-- The text before the literals. -/
theorem lex_queryPragmaChars (pragma : PragmaName) (p : List Char) (params : List (List Char)) :
    lex (queryPragmaChars pragma.text (p :: params)) =
      .word "PRAGMA".toList :: pragma.tokens ++ .operator ['('] ::
        lex ('\x27' :: (p ++ afterParam params)) := by
  obtain ⟨c, rest, hname, hspace⟩ := pragma.text_eq_cons
  have hspace' : ∀ tail, lex (' ' :: (pragma.text ++ tail)) = lex (pragma.text ++ tail) := by
    intro tail
    rw [hname]
    exact lex_space hspace (rest ++ tail)
  rw [queryPragmaChars_eq, pragmaWord.lex_append (by decide) (by decide), hspace',
    pragma.lex_append (by decide) (by decide), lex_single (by decide), lex_space (by decide)]
  rfl

/-- A parameter without a quote is the value of its literal. -/
theorem lex_param_of_not_mem {p : List Char} (params : List (List Char)) (hnul : '\x00' ∉ p)
    (hp : '\x27' ∉ p) :
    ∃ rest, afterParam params = '\x27' :: rest ∧
      lex ('\x27' :: (p ++ afterParam params)) = .string p :: lex rest := by
  obtain ⟨rest, hrest, hhead⟩ := afterParam_ne_quote params
  have hnil : ∀ c ∈ ([] : List Char).getLast?, isSeparator c = true := by simp
  have hliteral := lex_append_literal (rfl : Complete []) hnil hnul hhead
  rw [Regex.doubled_eq_self hp] at hliteral
  exact ⟨rest, hrest, hrest ▸ hliteral⟩

/-- A parameter with a quote is not the value of its literal. -/
theorem lex_param_ne_of_mem {p : List Char} (params : List (List Char)) (hp : '\x27' ∈ p)
    (tokens : List Token) :
    lex ('\x27' :: (p ++ afterParam params)) ≠ .string p :: tokens := by
  obtain ⟨rest, hrest, hhead⟩ := afterParam_ne_quote params
  let apostrophe : Delimiter := ⟨'\x27', rfl⟩
  have hlex : lex ('\x27' :: (p ++ afterParam params)) =
      lexer.output (.quoted apostrophe []) (p ++ '\x27' :: rest) := by
    rw [hrest]
    rfl
  intro h
  rw [hlex] at h
  obtain ⟨value, rest', htext, -, hout⟩ | ⟨cut, tokens', hout⟩ :=
    output_quoted_cases apostrophe [] (p ++ '\x27' :: rest)
  · have hvalue : value = p := by
      rw [hout, List.cons.injEq] at h
      exact Token.string.inj h.1
    rw [hvalue] at htext
    exact Regex.doubled_ne_of_mem hp hhead htext.symm
  · rw [hout, List.cons.injEq] at h
    cases h.1

/-- The literals are read as the parameters unless there is a quote in one of them. -/
theorem lex_params_iff (p : List Char) (params : List (List Char))
    (hnul : ∀ q ∈ p :: params, '\x00' ∉ q) :
    lex ('\x27' :: (p ++ afterParam params)) =
        ((p :: params).map Token.string).intersperse (.operator [',']) ++ [.operator [')']] ↔
      ∀ q ∈ p :: params, '\x27' ∉ q := by
  induction params generalizing p with
  | nil =>
    rw [List.forall_mem_singleton] at hnul ⊢
    by_cases hp : '\x27' ∈ p
    · exact iff_of_false (lex_param_ne_of_mem [] hp _) (not_not_intro hp)
    · obtain ⟨rest, hrest, hlex⟩ := lex_param_of_not_mem [] hnul hp
      obtain rfl : [' ', ')'] = rest := (List.cons.inj hrest).2
      exact iff_of_true hlex hp
  | cons q params ih =>
    rw [List.forall_mem_cons] at hnul
    rw [List.forall_mem_cons, ← ih q hnul.2]
    by_cases hp : '\x27' ∈ p
    · exact iff_of_false (lex_param_ne_of_mem (q :: params) hp _) (fun h => h.1 hp)
    · obtain ⟨rest, hrest, hlex⟩ := lex_param_of_not_mem (q :: params) hnul.1 hp
      have hnext : lex rest = .operator [','] :: lex ('\x27' :: (q ++ afterParam params)) := by
        rw [← (List.cons.inj hrest).2]
        exact lex_single (by decide) _
      rw [hlex, hnext]
      simp [hp]

theorem lex_queryPragmaChars_iff (pragma : PragmaName) {params : List (List Char)}
    (hparams : params ≠ []) (hnul : ∀ p ∈ params, '\x00' ∉ p) :
    lex (queryPragmaChars pragma.text params) = pragmaCall pragma params ↔
      ∀ p ∈ params, '\x27' ∉ p := by
  cases params with
  | nil => exact absurd rfl hparams
  | cons p params =>
    rw [lex_queryPragmaChars, pragmaCall, List.append_assoc, List.append_cancel_left_eq,
      List.cons_append, List.cons.injEq, ← lex_params_iff p params hnul]
    exact and_iff_right rfl

theorem lexBytes_queryPragmaText (pragma : PragmaName) {params : List (List Char)}
    (hparams : params ≠ []) :
    lexBytes (queryPragmaText (Utf8.encode pragma.text) (params.map Utf8.encode)).bytes =
      some (lex (queryPragmaChars pragma.text params)) := by
  rw [lexBytes, queryPragmaText_encode _ hparams, Utf8.decode_encode, Option.map_some]

/-- What `get_query_pragma` builds is the pragma applied to its parameters exactly
when no parameter has a quote in it. -/
theorem queryPragmaText_tokens_iff (pragma : PragmaName) (params : List (List Char))
    (hparams : params ≠ []) (hnul : ∀ p ∈ params, '\x00' ∉ p) :
    lexBytes (queryPragmaText (Utf8.encode pragma.text) (params.map Utf8.encode)).bytes =
        some (pragmaCall pragma params) ↔
      ∀ p ∈ params, '\x27' ∉ p := by
  rw [lexBytes_queryPragmaText pragma hparams, Option.some.injEq]
  exact lex_queryPragmaChars_iff pragma hparams hnul

/-- The pragma behind the method `foreign_key_list`. -/
def foreignKeyList : PragmaName :=
  ⟨none, ⟨'f', "oreign_key_list".toList, by decide, List.all_eq_true.mp (by decide)⟩⟩

/-- A plain name is read back. -/
theorem foreign_key_list_items :
    lexBytes (queryPragmaText (Utf8.encode foreignKeyList.text)
        (["items".toList].map Utf8.encode)).bytes =
      some (pragmaCall foreignKeyList ["items".toList]) :=
  (queryPragmaText_tokens_iff foreignKeyList ["items".toList] (by decide) (by decide)).mpr
    (by decide)

/-- The table `it's` is not. -/
theorem foreign_key_list_its :
    ¬ ∀ (pragma : PragmaName) (params : List (List Char)), params ≠ [] →
      (∀ p ∈ params, '\x00' ∉ p) →
      lexBytes (queryPragmaText (Utf8.encode pragma.text) (params.map Utf8.encode)).bytes =
        some (pragmaCall pragma params) := by
  intro hclaim
  have htokens := hclaim foreignKeyList ["it's".toList] (by decide) (by decide)
  rw [lexBytes_queryPragmaText _ (by decide), Option.some.injEq,
    lex_queryPragmaChars_iff _ (by decide) (by decide)] at htokens
  exact htokens "it's".toList (by decide) (by decide)

end Sqlite3Ruby.Query
