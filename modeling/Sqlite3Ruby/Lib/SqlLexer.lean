import Sqlite3Ruby.Lib.Regex

/-!
# Tokens of an SQL text

The lexer reads one character after the other. What it has read of the token
it is in is its mode; where a token ends is only known from the characters that
follow, so that a token is handed out by the step after it, or at the end of the
text.

## Implementation notes

The rules are those of SQLite. White space and comments make no token. A literal and a quoted name are told by
their values, with doubled delimiters read as one; the other tokens by their
texts. Nothing is read after U+0000.
-/

/-- A transducer: it hands out a list of outputs at each step, and another at
the end. -/
structure Transducer (σ α β : Type*) where
  initial : σ
  step : σ → α → List β × σ
  finish : σ → List β

namespace Transducer

variable {σ α β : Type*} (T : Transducer σ α β)

/-- The outputs over an input, and the state after it. -/
def run : σ → List α → List β × σ
  | s, [] => ([], s)
  | s, a :: input =>
      let rest := run (T.step s a).2 input
      ((T.step s a).1 ++ rest.1, rest.2)

/-- All outputs, from a state on. -/
def output (s : σ) (input : List α) : List β := (T.run s input).1 ++ T.finish (T.run s input).2

@[simp] theorem run_nil (s : σ) : T.run s [] = ([], s) := rfl

theorem run_cons (s : σ) (a : α) (input : List α) :
    T.run s (a :: input) =
      ((T.step s a).1 ++ (T.run (T.step s a).2 input).1, (T.run (T.step s a).2 input).2) := rfl

@[simp] theorem output_nil (s : σ) : T.output s [] = T.finish s := rfl

theorem output_cons (s : σ) (a : α) (input : List α) :
    T.output s (a :: input) = (T.step s a).1 ++ T.output (T.step s a).2 input := by
  rw [output, run_cons, List.append_assoc]
  rfl

theorem run_append (s : σ) (input rest : List α) :
    T.run s (input ++ rest) =
      ((T.run s input).1 ++ (T.run (T.run s input).2 rest).1,
        (T.run (T.run s input).2 rest).2) := by
  induction input generalizing s with
  | nil => rfl
  | cons a input ih => rw [List.cons_append, run_cons, run_cons, ih, List.append_assoc]

theorem output_append (s : σ) (input rest : List α) :
    T.output s (input ++ rest) = (T.run s input).1 ++ T.output (T.run s input).2 rest := by
  rw [output, run_append, List.append_assoc]
  rfl

/-- The state after an input that is not empty is the state after a step. -/
theorem run_snd_concat (s : σ) (input : List α) (a : α) :
    (T.run s (input ++ [a])).2 = (T.step (T.run s input).2 a).2 := by
  rw [run_append]
  rfl

/-- An input ends before `a`: the step is what it would be on a new input, after
what the end of this one hands out. -/
def EndsBefore (s : σ) (a : α) : Prop :=
  T.step s a = (T.finish s ++ (T.step T.initial a).1, (T.step T.initial a).2)

variable {T} {s : σ} {a : α}

theorem EndsBefore.output_cons (h : T.EndsBefore s a) (input : List α) :
    T.output s (a :: input) = T.finish s ++ T.output T.initial (a :: input) := by
  rw [T.output_cons s, T.output_cons T.initial, h, List.append_assoc]

/-- Where an input ends, the outputs of what follows are added to its own. -/
theorem EndsBefore.output_append {input : List α} (h : T.EndsBefore (T.run s input).2 a)
    (rest : List α) :
    T.output s (input ++ a :: rest) = T.output s input ++ T.output T.initial (a :: rest) := by
  rw [T.output_append, h.output_cons, ← List.append_assoc]
  rfl

end Transducer

namespace SqlLexer

inductive Token
  | word (text : List Char)
  | number (text : List Char)
  | string (value : List Char)
  | name (value : List Char)
  | blob (text : List Char)
  | parameter (text : List Char)
  | operator (text : List Char)
  | illegal (text : List Char)
  deriving DecidableEq, Repr

/-- Where a number is: after `0`, after `0x`, among the digits, after the `e` of an
exponent, or past its end, among characters that do not belong to it. -/
inductive NumberPart
  | zero
  | hexMark
  | hex
  | whole
  | fraction
  | exponentMark
  | exponent
  | trailing
  deriving DecidableEq, Repr

def isQuote (c : Char) : Bool := c = '\x27' || c = '\x22' || c = '\x60'

/-- What a literal or a quoted name stands between. -/
abbrev Delimiter := {c : Char // isQuote c = true}

/-- What has been read of the token. `named` is whether a parameter has a name yet. -/
inductive Mode
  | start
  | space
  | word (text : List Char)
  | number (part : NumberPart) (text : List Char)
  | exponentSign (text : List Char) (sign : Char)
  | dot
  | operator (text : List Char)
  | numbered (text : List Char)
  | parameter (text : List Char) (named : Bool)
  | parameterColon (text : List Char) (named : Bool)
  | parameterSuffix (text : List Char)
  | quoted (delimiter : Delimiter) (value : List Char)
  | afterQuote (delimiter : Delimiter) (value : List Char)
  | bracket (value : List Char)
  | blob (text : List Char)
  | lineComment
  | commentMark
  | blockComment (star : Bool)
  | ended
  deriving DecidableEq, Repr

/-! ## Characters -/

def isSpace (c : Char) : Bool :=
  c = ' ' || c = '\t' || c = '\n' || c = '\x0b' || c = '\x0c' || c = '\r'

def isHexDigit (c : Char) : Bool :=
  c.isDigit || ('a' ≤ c && c ≤ 'f') || ('A' ≤ c && c ≤ 'F')

theorem isSpace_mem {c : Char} (hc : isSpace c = true) :
    c ∈ [' ', '\t', '\n', '\x0b', '\x0c', '\r'] := by
  simp only [isSpace, Bool.or_eq_true, decide_eq_true_eq] at hc
  simp only [List.mem_cons, List.not_mem_nil, or_false]
  tauto

/-- A digit, or a separator between digits. -/
def isDigitOrSeparator (c : Char) : Bool := c.isDigit || c = '_'

/-- Characters a word begins with. -/
def isWordStart (c : Char) : Bool := c.isAlpha || c = '_' || 128 ≤ c.toNat

/-- Characters of a word. -/
def isIdChar (c : Char) : Bool := isWordStart c || c.isDigit || c = '$'

/-- Characters that are a token and do not begin a longer one. -/
def isSingle (c : Char) : Bool :=
  c = '(' || c = ')' || c = ';' || c = '+' || c = '*' || c = '%' || c = ',' || c = '&' || c = '~'

/-- Characters that are an operator, or begin a longer one or a comment. -/
def isOperatorStart (c : Char) : Bool :=
  c = '-' || c = '/' || c = '=' || c = '<' || c = '>' || c = '|' || c = '!'

/-! ## Steps -/

/-- A quoted value: a string literal, or a name. -/
def quotedToken (delimiter : Delimiter) (value : List Char) : Token :=
  if delimiter.1 = '\x27' then .string value else .name value

/-- `!` is no operator. -/
def operatorToken (text : List Char) : Token :=
  if text = ['!'] then .illegal text else .operator text

def numberToken (part : NumberPart) (text : List Char) : Token :=
  if part = .hexMark ∨ part = .exponentMark ∨ part = .trailing then .illegal text
  else .number text

def parameterToken (text : List Char) (named : Bool) : Token :=
  if named then .parameter text else .illegal text

/-- An even number of hexadecimal digits between the delimiters. -/
def blobToken (text : List Char) : Token :=
  let digits := (text.drop 2).dropLast
  if digits.all isHexDigit && digits.length % 2 = 0 then .blob text else .illegal text

/-- What the end of the text makes of what has been read. -/
def finish : Mode → List Token
  | .word text => [.word text]
  | .number part text => [numberToken part text]
  | .exponentSign text sign => [.illegal text, .operator [sign]]
  | .dot => [.operator ['.']]
  | .operator text => [operatorToken text]
  | .numbered text => [.parameter text]
  | .parameter text named => [parameterToken text named]
  | .parameterColon text named => [parameterToken text named, .illegal [':']]
  | .parameterSuffix text => [.illegal text]
  | .quoted delimiter value => [.illegal (delimiter.1 :: Regex.doubled delimiter.1 value)]
  | .afterQuote delimiter value => [quotedToken delimiter value]
  | .bracket value => [.illegal ('[' :: value)]
  | .blob text => [.illegal text]
  | .commentMark => [.operator ['/'], .operator ['*']]
  | .start | .space | .lineComment | .blockComment _ | .ended => []

/-- A character that no token is open before. A byte-order mark is a space. -/
def begin (c : Char) : List Token × Mode :=
  if c = '\x00' then ([], .ended)
  else if c = '\uFEFF' then ([], .start)
  else if isSpace c && c ≠ '\x0b' then ([], .space)
  else if isWordStart c then ([], .word [c])
  else if c = '0' then ([], .number .zero [c])
  else if c.isDigit then ([], .number .whole [c])
  else if h : isQuote c = true then ([], .quoted ⟨c, h⟩ [])
  else if c = '[' then ([], .bracket [])
  else if c = '?' then ([], .numbered [c])
  else if c = '$' || c = '@' || c = '#' || c = ':' then ([], .parameter [c] false)
  else if c = '.' then ([], .dot)
  else if isOperatorStart c then ([], .operator [c])
  else if isSingle c then ([.operator [c]], .start)
  else ([.illegal [c]], .start)

/-- The token ends before `c`. -/
def close (m : Mode) (c : Char) : List Token × Mode := (finish m ++ (begin c).1, (begin c).2)

def stepNumber (part : NumberPart) (text : List Char) (c : Char) : List Token × Mode :=
  let continued (part : NumberPart) := (([], .number part (text ++ [c])) : List Token × Mode)
  let trailing := if isIdChar c then continued .trailing else close (.number part text) c
  let exponent := if c = 'e' || c = 'E' then continued .exponentMark else trailing
  let digits (part : NumberPart) (otherwise : List Token × Mode) :=
    if isDigitOrSeparator c then continued part else otherwise
  match part with
  | .zero =>
      if c = 'x' || c = 'X' then continued .hexMark
      else digits .whole (if c = '.' then continued .fraction else exponent)
  | .whole => digits .whole (if c = '.' then continued .fraction else exponent)
  | .fraction => digits .fraction exponent
  | .hexMark => if isHexDigit c then continued .hex else trailing
  | .hex => if isHexDigit c || c = '_' then continued .hex else trailing
  | .exponentMark =>
      if c.isDigit then continued .exponent
      else if c = '+' || c = '-' then ([], .exponentSign text c)
      else trailing
  | .exponent => digits .exponent trailing
  | .trailing => trailing

def stepOperator (text : List Char) (c : Char) : List Token × Mode :=
  if text = ['-'] ∧ c = '-' then ([], .lineComment)
  else if text = ['-'] ∧ c = '>' then ([], .operator ['-', '>'])
  else if text = ['/'] ∧ c = '*' then ([], .commentMark)
  else if (text, c) ∈ [(['-', '>'], '>'), (['='], '='), (['<'], '='), (['<'], '>'), (['<'], '<'),
      (['>'], '='), (['>'], '>'), (['!'], '='), (['|'], '|')] then
    ([.operator (text ++ [c])], .start)
  else close (.operator text) c

def stepParameter (text : List Char) (named : Bool) (c : Char) : List Token × Mode :=
  if isIdChar c then ([], .parameter (text ++ [c]) true)
  else if c = '(' && named then ([], .parameterSuffix (text ++ [c]))
  else if c = ':' then ([], .parameterColon text named)
  else close (.parameter text named) c

def step (m : Mode) (c : Char) : List Token × Mode :=
  match m with
  | .start => begin c
  | .space => if isSpace c then ([], .space) else begin c
  | .word text =>
      if isIdChar c then ([], .word (text ++ [c]))
      else if c = '\x27' && (text = ['x'] || text = ['X']) then ([], .blob (text ++ [c]))
      else close m c
  | .number part text => stepNumber part text c
  | .exponentSign text sign =>
      if c.isDigit then ([], .number .exponent (text ++ [sign, c]))
      else if sign = '-' then
        let next := stepOperator ['-'] c
        (.illegal text :: next.1, next.2)
      else close m c
  | .dot => if c.isDigit then ([], .number .fraction ['.', c]) else close m c
  | .operator text => stepOperator text c
  | .numbered text => if c.isDigit then ([], .numbered (text ++ [c])) else close m c
  | .parameter text named => stepParameter text named c
  | .parameterColon text named =>
      if c = ':' then ([], .parameter (text ++ [':', ':']) named)
      else
        let next := stepParameter [':'] false c
        (parameterToken text named :: next.1, next.2)
  | .parameterSuffix text =>
      if c = ')' then ([.parameter (text ++ [c])], .start)
      else if isSpace c || c = '\x00' then close m c
      else ([], .parameterSuffix (text ++ [c]))
  | .quoted delimiter value =>
      if c = '\x00' then close m c
      else if c = delimiter.1 then ([], .afterQuote delimiter value)
      else ([], .quoted delimiter (value ++ [c]))
  | .afterQuote delimiter value =>
      if c = delimiter.1 then ([], .quoted delimiter (value ++ [c])) else close m c
  | .bracket value =>
      if c = '\x00' then close m c
      else if c = ']' then ([.name value], .start)
      else ([], .bracket (value ++ [c]))
  | .blob text =>
      if c = '\x00' then close m c
      else if c = '\x27' then ([blobToken (text ++ [c])], .start)
      else ([], .blob (text ++ [c]))
  | .lineComment =>
      if c = '\n' || c = '\x00' then close m c else ([], .lineComment)
  | .commentMark => if c = '\x00' then close m c else ([], .blockComment (c = '*'))
  | .blockComment star =>
      if c = '\x00' then close m c
      else if star && c = '/' then ([], .start)
      else ([], .blockComment (c = '*'))
  | .ended => ([], .ended)

/-- The lexer. -/
def lexer : Transducer Mode Char Token := ⟨.start, step, finish⟩

/-- The tokens of a text. -/
def lex (text : List Char) : List Token := lexer.output .start text

/-- The mode after a text. -/
def modeAfter (text : List Char) : Mode := (lexer.run .start text).2

/-! ## Texts that end between tokens -/

/-- Inside a literal, a quoted name, a comment or the parentheses of a parameter. -/
def Mode.isOpen : Mode → Bool
  | .parameterSuffix _ | .quoted _ _ | .bracket _ | .blob _ => true
  | .lineComment | .commentMark | .blockComment _ | .ended => true
  | _ => false

/-- Nothing is open at the end of the text. -/
def Complete (text : List Char) : Prop := (modeAfter text).isOpen = false

instance (text : List Char) : Decidable (Complete text) :=
  inferInstanceAs (Decidable (_ = false))

/-- White space, a comma, an opening parenthesis or an equals sign. -/
def isSeparator (c : Char) : Bool := isSpace c || c = ',' || c = '(' || c = '='

/-- A mode that a quote cannot continue. -/
def Mode.IsSettled (m : Mode) : Prop := m = .start ∨ m = .space ∨ ∃ text, m = .operator text

theorem endsBefore_of_isSettled {m : Mode} (h : m.IsSettled) : lexer.EndsBefore m '\x27' := by
  obtain rfl | rfl | ⟨text, rfl⟩ := h
  · rfl
  · rfl
  · change stepOperator text '\x27' = close (.operator text) '\x27'
    simp [stepOperator]

section Separators

variable {c : Char} (hc : isSeparator c = true)

include hc

theorem isSeparator_mem : c ∈ [' ', '\t', '\n', '\x0b', '\x0c', '\r', ',', '(', '='] := by
  simp only [isSeparator, isSpace, Bool.or_eq_true, decide_eq_true_eq] at hc
  simp only [List.mem_cons, List.not_mem_nil, or_false]
  tauto

theorem begin_separator : (begin c).2.IsSettled := by
  have hsettled : ∀ c ∈ [' ', '\t', '\n', '\x0b', '\x0c', '\r', ',', '(', '='],
      (begin c).2 = .start ∨ (begin c).2 = .space ∨ (begin c).2 = .operator ['='] := by
    simp only [List.forall_mem_cons, List.not_mem_nil, IsEmpty.forall_iff, implies_true]
    decide
  obtain h | h | h := hsettled c (isSeparator_mem hc)
  · exact Or.inl h
  · exact Or.inr (Or.inl h)
  · exact Or.inr (Or.inr ⟨_, h⟩)

theorem close_separator (m : Mode) : (close m c).2.IsSettled := begin_separator hc

/-- What separates tokens continues neither a word nor a number. -/
theorem separator_continues_none :
    isIdChar c = false ∧ c.isDigit = false ∧ isDigitOrSeparator c = false ∧
      isHexDigit c = false ∧ isQuote c = false := by
  have hall : ∀ c ∈ [' ', '\t', '\n', '\x0b', '\x0c', '\r', ',', '(', '='],
      isIdChar c = false ∧ c.isDigit = false ∧ isDigitOrSeparator c = false ∧
        isHexDigit c = false ∧ isQuote c = false := by
    simp only [List.forall_mem_cons, List.not_mem_nil, IsEmpty.forall_iff, implies_true]
    decide
  exact hall c (isSeparator_mem hc)

theorem separator_ne {d : Char} (hd : isSeparator d = false) : c ≠ d := by
  rintro rfl
  exact Bool.false_ne_true (hd.symm.trans hc)

theorem stepNumber_separator (part : NumberPart) (text : List Char) :
    stepNumber part text c = close (.number part text) c := by
  obtain ⟨hid, hdigit, hsep, hhex, -⟩ := separator_continues_none hc
  have he : c ≠ 'e' := separator_ne hc (by decide)
  have hE : c ≠ 'E' := separator_ne hc (by decide)
  have hx : c ≠ 'x' := separator_ne hc (by decide)
  have hX : c ≠ 'X' := separator_ne hc (by decide)
  have hdot : c ≠ '.' := separator_ne hc (by decide)
  have hplus : c ≠ '+' := separator_ne hc (by decide)
  have hminus : c ≠ '-' := separator_ne hc (by decide)
  have hunderscore : c ≠ '_' := separator_ne hc (by decide)
  cases part <;>
    simp [stepNumber, hid, hdigit, hsep, hhex, he, hE, hx, hX, hdot, hplus, hminus, hunderscore]

theorem stepOperator_separator (text : List Char) : (stepOperator text c).2.IsSettled := by
  have hminus : c ≠ '-' := separator_ne hc (by decide)
  have hgreater : c ≠ '>' := separator_ne hc (by decide)
  have hstar : c ≠ '*' := separator_ne hc (by decide)
  rw [stepOperator, if_neg (fun h => hminus h.2), if_neg (fun h => hgreater h.2),
    if_neg (fun h => hstar h.2)]
  split_ifs
  · exact Or.inl rfl
  · exact close_separator hc _

theorem stepParameter_separator (text : List Char) (named : Bool)
    (hclosed : (stepParameter text named c).2.isOpen = false) :
    (stepParameter text named c).2.IsSettled := by
  have hid := (separator_continues_none hc).1
  have hcolon : c ≠ ':' := separator_ne hc (by decide)
  rw [stepParameter, if_neg (by simp [hid]), if_neg hcolon] at hclosed ⊢
  split_ifs at hclosed ⊢
  · cases hclosed
  · exact close_separator hc _

/-- Where something is open, a separator is part of it, ends it or breaks it off. -/
theorem step_separator_of_isOpen {m : Mode} (hopen : m.isOpen = true)
    (hclosed : (step m c).2.isOpen = false) : (step m c).2.IsSettled := by
  cases m with
  | parameterSuffix text =>
    rw [step] at hclosed ⊢
    split_ifs at hclosed ⊢
    · exact Or.inl rfl
    · exact close_separator hc _
    · cases hclosed
  | quoted delimiter value =>
    rw [step] at hclosed ⊢
    split_ifs at hclosed ⊢
    · exact close_separator hc _
    · rename_i hdelimiter
      have hquote := (separator_continues_none hc).2.2.2.2
      rw [hdelimiter, delimiter.2] at hquote
      cases hquote
    · cases hclosed
  | bracket value =>
    rw [step] at hclosed ⊢
    split_ifs at hclosed ⊢
    · exact close_separator hc _
    · exact Or.inl rfl
    · cases hclosed
  | blob text =>
    rw [step] at hclosed ⊢
    split_ifs at hclosed ⊢
    · exact close_separator hc _
    · exact Or.inl rfl
    · cases hclosed
  | lineComment =>
    rw [step] at hclosed ⊢
    split_ifs at hclosed ⊢
    · exact close_separator hc _
    · cases hclosed
  | commentMark =>
    rw [step] at hclosed ⊢
    split_ifs at hclosed ⊢
    · exact close_separator hc _
    · cases hclosed
  | blockComment star =>
    rw [step] at hclosed ⊢
    split_ifs at hclosed ⊢
    · exact close_separator hc _
    · exact Or.inl rfl
    · cases hclosed
  | ended => cases hclosed
  | _ => cases hopen

/-- A step over a separator settles the mode, unless something is open after it. -/
theorem step_separator (m : Mode) (hclosed : (step m c).2.isOpen = false) :
    (step m c).2.IsSettled := by
  by_cases hopen : m.isOpen = true
  · exact step_separator_of_isOpen hc hopen hclosed
  obtain ⟨hid, hdigit, -, -, hquote⟩ := separator_continues_none hc
  cases m with
  | start => exact begin_separator hc
  | space =>
    rw [step]
    split_ifs
    · exact Or.inr (Or.inl rfl)
    · exact begin_separator hc
  | word text =>
    have hapostrophe : c ≠ '\x27' := separator_ne hc (by decide)
    rw [step, if_neg (by simp [hid]), if_neg (by simp [hapostrophe])]
    exact close_separator hc _
  | number part text =>
    rw [step, stepNumber_separator hc]
    exact close_separator hc _
  | exponentSign text sign =>
    rw [step, if_neg (by simp [hdigit])]
    split_ifs
    · exact stepOperator_separator hc _
    · exact close_separator hc _
  | dot =>
    rw [step, if_neg (by simp [hdigit])]
    exact close_separator hc _
  | operator text => exact stepOperator_separator hc text
  | numbered text =>
    rw [step, if_neg (by simp [hdigit])]
    exact close_separator hc _
  | parameter text named => exact stepParameter_separator hc text named hclosed
  | parameterColon text named =>
    have hcolon : c ≠ ':' := separator_ne hc (by decide)
    rw [step, if_neg hcolon] at hclosed ⊢
    exact stepParameter_separator hc _ _ hclosed
  | afterQuote delimiter value =>
    have hdelimiter : c ≠ delimiter.1 := by
      rintro rfl
      exact Bool.false_ne_true (hquote.symm.trans delimiter.2)
    rw [step, if_neg hdelimiter]
    exact close_separator hc _
  | _ => exact absurd rfl hopen

end Separators

/-- A complete text that is empty or ends with a separator ends before a quote. -/
theorem endsBefore_quote {text : List Char} (hcomplete : Complete text)
    (hend : ∀ c ∈ text.getLast?, isSeparator c = true) :
    lexer.EndsBefore (modeAfter text) '\x27' := by
  apply endsBefore_of_isSettled
  rcases text.eq_nil_or_concat with rfl | ⟨init, c, rfl⟩
  · exact Or.inl rfl
  · have hc : isSeparator c = true := hend c (by simp)
    rw [List.concat_eq_append] at hcomplete ⊢
    rw [Complete, modeAfter, lexer.run_snd_concat] at hcomplete
    rw [modeAfter, lexer.run_snd_concat]
    exact step_separator hc _ hcomplete

/-! ## Words -/

/-- The text of a word. A byte-order mark begins no word. -/
structure Word where
  first : Char
  rest : List Char
  isStart : isWordStart first = true ∧ first ≠ '\uFEFF'
  isRest : ∀ c ∈ rest, isIdChar c = true

def Word.text (word : Word) : List Char := word.first :: word.rest

theorem isSpace_of_isWordStart {c : Char} (h : isWordStart c = true) : isSpace c = false := by
  have hnone : ∀ c ∈ [' ', '\t', '\n', '\x0b', '\x0c', '\r'], isWordStart c = false := by
    simp only [List.forall_mem_cons, List.not_mem_nil, IsEmpty.forall_iff, implies_true]
    decide
  apply Bool.eq_false_iff.mpr
  intro hspace
  exact Bool.false_ne_true ((hnone c (isSpace_mem hspace)).symm.trans h)

/-- A character that begins a word begins nothing else. -/
theorem begin_wordStart {c : Char} (hstart : isWordStart c = true) (hmark : c ≠ '\uFEFF') :
    begin c = ([], .word [c]) := by
  have hnul : c ≠ '\x00' := by
    rintro rfl
    cases hstart
  rw [begin, if_neg hnul, if_neg hmark, if_neg (by simp [isSpace_of_isWordStart hstart]),
    if_pos hstart]

theorem run_word (text : List Char) {rest : List Char} (hrest : ∀ c ∈ rest, isIdChar c = true) :
    lexer.run (.word text) rest = ([], .word (text ++ rest)) := by
  induction rest generalizing text with
  | nil => rw [List.append_nil]; rfl
  | cons c rest ih =>
    rw [List.forall_mem_cons] at hrest
    have hstep : lexer.step (.word text) c = ([], .word (text ++ [c])) := if_pos hrest.1
    rw [lexer.run_cons, hstep, ih _ hrest.2, List.append_assoc]
    rfl

theorem Word.run (word : Word) : lexer.run .start word.text = ([], .word word.text) := by
  have hstep : lexer.step .start word.first = ([], .word [word.first]) :=
    begin_wordStart word.isStart.1 word.isStart.2
  rw [text, lexer.run_cons, hstep, run_word _ word.isRest]
  rfl

/-- A word ends before a character that neither belongs to it nor makes a blob of it. -/
theorem Word.lex_append (word : Word) {c : Char} (hid : isIdChar c = false) (hquote : c ≠ '\x27')
    (rest : List Char) :
    lex (word.text ++ c :: rest) = .word word.text :: lex (c :: rest) := by
  have hends : lexer.EndsBefore (lexer.run .start word.text).2 c := by
    rw [word.run]
    change step (.word word.text) c = close (.word word.text) c
    rw [step, if_neg (by simp [hid]), if_neg (by simp [hquote])]
  have happend := hends.output_append rest
  have hword : lexer.output .start word.text = [.word word.text] := by
    rw [Transducer.output, word.run]
    rfl
  rw [hword] at happend
  exact happend

theorem isDigit_of_isWordStart {c : Char} (h : isWordStart c = true) : c.isDigit = false := by
  have hval : c.toNat = c.val.toNat := rfl
  have halpha : c.isAlpha =
      (decide (c.val ≥ 'A'.val ∧ c.val ≤ 'Z'.val) ||
        decide (c.val ≥ 'a'.val) && decide (c.val ≤ 'z'.val)) := rfl
  simp only [isWordStart, halpha, Bool.or_eq_true, Bool.and_eq_true, decide_eq_true_eq, ge_iff_le,
    UInt32.le_iff_toNat_le, Char.reduceVal, UInt32.reduceToNat] at h
  obtain (halpha | rfl) | hhigh := h
  · simp only [Char.isDigit, Bool.and_eq_false_iff, decide_eq_false_iff_not,
      UInt32.le_iff_toNat_le, Char.reduceVal, UInt32.reduceToNat]
    omega
  · rfl
  · simp only [Char.isDigit, Bool.and_eq_false_iff, decide_eq_false_iff_not,
      UInt32.le_iff_toNat_le, Char.reduceVal, UInt32.reduceToNat]
    omega

/-- A space before a character that is none. -/
theorem lex_space {c : Char} (hc : isSpace c = false) (rest : List Char) :
    lex (' ' :: c :: rest) = lex (c :: rest) := by
  have hstep : step .space c = begin c := by rw [step, if_neg (by simp [hc])]
  have hends : lexer.EndsBefore .space c := hstep
  exact hends.output_cons rest

/-- The dot between two words. -/
theorem Word.lex_dot (word : Word) (rest : List Char) :
    lex ('.' :: (word.text ++ rest)) = .operator ['.'] :: lex (word.text ++ rest) := by
  have hends : lexer.EndsBefore .dot word.first := by
    change step .dot word.first = close .dot word.first
    rw [step, if_neg (by simp [isDigit_of_isWordStart word.isStart.1])]
  exact hends.output_cons (word.rest ++ rest)

/-! ## Literals -/

section Quoted

variable (delimiter : Delimiter) (value : List Char)

theorem nul_ne : '\x00' ≠ delimiter.1 := by
  intro h
  have hquote : isQuote '\x00' = true := h ▸ delimiter.2
  cases hquote

theorem step_quoted {c : Char} (hnul : c ≠ '\x00') (hc : c ≠ delimiter.1) :
    lexer.step (.quoted delimiter value) c = ([], .quoted delimiter (value ++ [c])) := by
  change step (.quoted delimiter value) c = _
  rw [step, if_neg hnul, if_neg hc]

theorem step_quoted_delimiter :
    lexer.step (.quoted delimiter value) delimiter.1 = ([], .afterQuote delimiter value) := by
  change step (.quoted delimiter value) delimiter.1 = _
  rw [step, if_neg (nul_ne delimiter).symm, if_pos rfl]

theorem step_afterQuote_delimiter :
    lexer.step (.afterQuote delimiter value) delimiter.1 =
      ([], .quoted delimiter (value ++ [delimiter.1])) := by
  change step (.afterQuote delimiter value) delimiter.1 = _
  rw [step, if_pos rfl]

theorem endsBefore_afterQuote {c : Char} (hc : c ≠ delimiter.1) :
    lexer.EndsBefore (.afterQuote delimiter value) c := by
  change step (.afterQuote delimiter value) c = close (.afterQuote delimiter value) c
  rw [step, if_neg hc]

/-- After the closing quote, what follows is read on its own. -/
theorem output_afterQuote {rest : List Char} (hrest : rest.head? ≠ some delimiter.1) :
    lexer.output (.afterQuote delimiter value) rest = quotedToken delimiter value :: lex rest := by
  cases rest with
  | nil => rfl
  | cons c rest =>
    have hc : c ≠ delimiter.1 := fun h => hrest (congrArg some h)
    rw [(endsBefore_afterQuote delimiter value hc).output_cons]
    rfl

/-- A text with its delimiters doubled is read whole. -/
theorem output_doubled {text : List Char} (hnul : '\x00' ∉ text) (rest : List Char) :
    lexer.output (.quoted delimiter value) (Regex.doubled delimiter.1 text ++ rest) =
      lexer.output (.quoted delimiter (value ++ text)) rest := by
  induction text generalizing value with
  | nil => rw [List.append_nil]; rfl
  | cons c text ih =>
    rw [List.mem_cons, not_or] at hnul
    have hsplit : value ++ c :: text = value ++ [c] ++ text := by simp
    by_cases hc : c = delimiter.1
    · subst hc
      rw [Regex.doubled_cons_self, List.cons_append, List.cons_append, lexer.output_cons,
        step_quoted_delimiter, lexer.output_cons, step_afterQuote_delimiter, hsplit]
      exact ih (value ++ [delimiter.1]) hnul.2
    · rw [Regex.doubled_cons_of_ne hc, List.cons_append, lexer.output_cons,
        step_quoted _ _ (Ne.symm hnul.1) hc, List.nil_append, hsplit]
      exact ih (value ++ [c]) hnul.2

/-- After U+0000 nothing is read. -/
theorem output_quoted_nul (rest : List Char) :
    ∃ cut tokens, lexer.output (.quoted delimiter value) ('\x00' :: rest) =
      .illegal cut :: tokens := by
  rw [lexer.output_cons]
  exact ⟨_, _, rfl⟩

/-- A literal that is closed has the value whose doubled text stands before the
closing delimiter; otherwise its text is no token. -/
theorem output_quoted_cases (text : List Char) :
    (∃ more rest, text = Regex.doubled delimiter.1 more ++ delimiter.1 :: rest ∧
      rest.head? ≠ some delimiter.1 ∧
      lexer.output (.quoted delimiter value) text =
        quotedToken delimiter (value ++ more) :: lex rest) ∨
    ∃ cut tokens, lexer.output (.quoted delimiter value) text = .illegal cut :: tokens := by
  induction h : text.length using Nat.strongRecOn generalizing text value with
  | _ n ih =>
    subst h
    have hprepend : ∀ c : Char, ∀ more : List Char, value ++ [c] ++ more = value ++ c :: more :=
      fun c more => by simp
    cases text with
    | nil => exact Or.inr ⟨_, [], rfl⟩
    | cons c text =>
      by_cases hnul : c = '\x00'
      · subst hnul
        exact Or.inr (output_quoted_nul delimiter value text)
      by_cases hc : c = delimiter.1
      · subst hc
        rw [lexer.output_cons, step_quoted_delimiter]
        by_cases hmore : text.head? = some delimiter.1
        · -- a doubled delimiter
          obtain ⟨text, rfl⟩ := List.head?_eq_some_iff.mp hmore
          rw [lexer.output_cons, step_afterQuote_delimiter]
          obtain ⟨more, rest, rfl, hrest, hout⟩ | hcut :=
            ih text.length (by simp only [List.length_cons]; omega) (value ++ [delimiter.1]) text rfl
          · refine Or.inl ⟨delimiter.1 :: more, rest, ?_, hrest, ?_⟩
            · rw [Regex.doubled_cons_self]
              rfl
            · exact hout.trans (by rw [hprepend])
          · exact Or.inr hcut
        · refine Or.inl ⟨[], text, rfl, hmore, ?_⟩
          rw [List.append_nil]
          exact output_afterQuote delimiter value hmore
      · rw [lexer.output_cons, step_quoted delimiter value hnul hc]
        obtain ⟨more, rest, rfl, hrest, hout⟩ | hcut :=
          ih text.length (by simp) (value ++ [c]) text rfl
        · refine Or.inl ⟨c :: more, rest, ?_, hrest, ?_⟩
          · rw [Regex.doubled_cons_of_ne hc]
            rfl
          · exact hout.trans (by rw [hprepend])
        · exact Or.inr hcut

/-- No U+0000 comes into a value. -/
theorem output_quoted_no_nul (hvalue : '\x00' ∉ value) (text : List Char) :
    (∃ read tokens, lexer.output (.quoted delimiter value) text =
      quotedToken delimiter read :: tokens ∧ '\x00' ∉ read) ∨
    ∃ cut tokens, lexer.output (.quoted delimiter value) text = .illegal cut :: tokens := by
  induction h : text.length using Nat.strongRecOn generalizing text value with
  | _ n ih =>
    subst h
    have happend : ∀ c : Char, c ≠ '\x00' → '\x00' ∉ value ++ [c] := by
      intro c hc hmem
      obtain hmem | hmem := List.mem_append.mp hmem
      · exact hvalue hmem
      · exact hc (List.mem_singleton.mp hmem).symm
    cases text with
    | nil => exact Or.inr ⟨_, [], rfl⟩
    | cons c text =>
      by_cases hnul : c = '\x00'
      · subst hnul
        exact Or.inr (output_quoted_nul delimiter value text)
      by_cases hc : c = delimiter.1
      · subst hc
        rw [lexer.output_cons, step_quoted_delimiter]
        by_cases hmore : text.head? = some delimiter.1
        · obtain ⟨text, rfl⟩ := List.head?_eq_some_iff.mp hmore
          rw [lexer.output_cons, step_afterQuote_delimiter]
          exact ih text.length (by simp only [List.length_cons]; omega) _ (happend _ hnul) text rfl
        · exact Or.inl ⟨value, _, output_afterQuote delimiter value hmore, hvalue⟩
      · rw [lexer.output_cons, step_quoted delimiter value hnul hc]
        exact ih text.length (by simp) _ (happend c hnul) text rfl

end Quoted

/-! ## Numbers -/

theorem isDigit_mem {c : Char} (hc : c.isDigit = true) :
    c ∈ ['0', '1', '2', '3', '4', '5', '6', '7', '8', '9'] := by
  simp only [Char.isDigit, Bool.and_eq_true, decide_eq_true_eq, ge_iff_le, UInt32.le_iff_toNat_le,
    Char.reduceVal, UInt32.reduceToNat] at hc
  have hall : ∀ k < 10, Char.ofNat (48 + k) ∈
      ['0', '1', '2', '3', '4', '5', '6', '7', '8', '9'] := by decide
  have hchar : Char.ofNat c.val.toNat = c := Char.ofNat_toNat c
  have hk := hall (c.val.toNat - 48) (by omega)
  rwa [Nat.add_sub_cancel' hc.1, hchar] at hk

/-- The modes after the digits of a whole number. -/
def NumberPart.IsWhole (part : NumberPart) : Prop := part = .zero ∨ part = .whole

theorem begin_digit {c : Char} (hc : c.isDigit = true) :
    ∃ part : NumberPart, part.IsWhole ∧ begin c = ([], .number part [c]) := by
  have hdigits : ∀ c ∈ ['0', '1', '2', '3', '4', '5', '6', '7', '8', '9'],
      begin c = ([], .number (if c = '0' then .zero else .whole) [c]) := by
    simp only [List.forall_mem_cons, List.not_mem_nil, IsEmpty.forall_iff, implies_true]
    decide
  refine ⟨_, ?_, hdigits c (isDigit_mem hc)⟩
  split
  · exact Or.inl rfl
  · exact Or.inr rfl

theorem stepNumber_digit {part : NumberPart} (hpart : part.IsWhole) (text : List Char) {c : Char}
    (hc : c.isDigit = true) : stepNumber part text c = ([], .number .whole (text ++ [c])) := by
  have hmark : ¬ (c = 'x' ∨ c = 'X') := by
    rintro (rfl | rfl) <;> cases hc
  obtain rfl | rfl := hpart
  · simp [stepNumber, isDigitOrSeparator, hc, hmark]
  · simp [stepNumber, isDigitOrSeparator, hc]

theorem run_digits {part : NumberPart} (hpart : part.IsWhole) (text : List Char) {rest : List Char}
    (hrest : ∀ c ∈ rest, c.isDigit = true) :
    ∃ part' : NumberPart, part'.IsWhole ∧
      lexer.run (.number part text) rest = ([], .number part' (text ++ rest)) := by
  induction rest generalizing part text with
  | nil => exact ⟨part, hpart, by rw [List.append_nil]; rfl⟩
  | cons c rest ih =>
    rw [List.forall_mem_cons] at hrest
    have hstep : lexer.step (.number part text) c = ([], .number .whole (text ++ [c])) :=
      stepNumber_digit hpart text hrest.1
    obtain ⟨part', hpart', hrun⟩ := ih (Or.inr rfl) (text ++ [c]) hrest.2
    refine ⟨part', hpart', ?_⟩
    rw [lexer.run_cons, hstep, hrun, List.append_assoc]
    rfl

/-- Digits are one number. -/
theorem lex_digits {c : Char} {rest : List Char} (hdigits : ∀ d ∈ c :: rest, d.isDigit = true) :
    lex (c :: rest) = [.number (c :: rest)] := by
  rw [List.forall_mem_cons] at hdigits
  obtain ⟨part, hpart, hbegin⟩ := begin_digit hdigits.1
  obtain ⟨part', hpart', hrun⟩ := run_digits hpart [c] hdigits.2
  have hstep : lexer.step .start c = ([], .number part [c]) := hbegin
  rw [lex, lexer.output_cons, hstep, Transducer.output, hrun]
  obtain rfl | rfl := hpart' <;> rfl

/-! ## Operators -/

/-- `=` before a character that does not continue it. -/
theorem lex_equals {c : Char} (hc : c ≠ '=') (rest : List Char) :
    lex ('=' :: c :: rest) = .operator ['='] :: lex (c :: rest) := by
  have hends : lexer.EndsBefore (.operator ['=']) c := by
    change stepOperator ['='] c = close (.operator ['=']) c
    simp [stepOperator, hc]
  exact hends.output_cons rest

/-- `-` before a character that makes neither an arrow nor a comment of it. -/
theorem lex_minus {c : Char} (hminus : c ≠ '-') (harrow : c ≠ '>') (rest : List Char) :
    lex ('-' :: c :: rest) = .operator ['-'] :: lex (c :: rest) := by
  have hends : lexer.EndsBefore (.operator ['-']) c := by
    change stepOperator ['-'] c = close (.operator ['-']) c
    simp [stepOperator, hminus, harrow]
  exact hends.output_cons rest

/-- A literal between a complete text and a text that does not begin with a quote. -/
theorem lex_append_literal {before value after : List Char} (hcomplete : Complete before)
    (hend : ∀ c ∈ before.getLast?, isSeparator c = true) (hnul : '\x00' ∉ value)
    (hafter : after.head? ≠ some '\x27') :
    lex (before ++ '\x27' :: (Regex.doubled '\x27' value ++ '\x27' :: after)) =
      lex before ++ .string value :: lex after := by
  let apostrophe : Delimiter := ⟨'\x27', rfl⟩
  have hliteral : lex ('\x27' :: (Regex.doubled '\x27' value ++ '\x27' :: after)) =
      .string value :: lex after := by
    rw [lex, lexer.output_cons]
    change lexer.output (.quoted apostrophe [])
      (Regex.doubled apostrophe.1 value ++ apostrophe.1 :: after) = _
    rw [output_doubled apostrophe [] hnul, lexer.output_cons, step_quoted_delimiter]
    exact output_afterQuote apostrophe value hafter
  rw [← hliteral]
  exact (endsBefore_quote hcomplete hend).output_append _

end SqlLexer
