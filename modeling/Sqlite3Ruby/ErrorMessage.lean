import Sqlite3Ruby.Lib.Lines
import Sqlite3Ruby.Query

/-!
# The SQL part of an error message

`rb_sqlite3_raise_with_sql` puts the text of the statement and the offset of the
error in the exception. `Exception#message` renders the lines of the text, with
a caret under the place of the error.

## Implementation notes

The text is made with `rb_str_new2`: it is a string of bytes without an encoding
of characters, so that its lengths are counted in bytes.
-/

namespace Sqlite3Ruby.ErrorMessage

open Lines

/-- An exception with the instance variables that are set. An unset `@sql` is nil. -/
structure SqlException where
  klass : ExceptionClass
  errorMsg : List UInt8
  code : Nat
  sql : Option (List UInt8)
  sqlOffset : Int

/-- `rb_sqlite3_raise_with_sql`: what it raises. `sqlite3_error_offset` is asked when
the extension is compiled with it. -/
def raiseWithSql (haveErrorOffset : Bool) (status : Nat) (errorMsg : List UInt8)
    (sqlite3ErrorOffset : Int) (sql : Option (List UInt8)) : Option SqlException :=
  (status2klass status).map fun klass =>
    { klass
      errorMsg
      code := status
      sql := sql.map Query.cString
      sqlOffset := if haveErrorOffset then sqlite3ErrorOffset else -1 }

abbrev lineFeed : UInt8 := 10

abbrev carriageReturn : UInt8 := 13

abbrev blank : UInt8 := 32

abbrev caret : UInt8 := 94

/-- The loop over the lines. Once the caret is drawn the offset is negative. -/
def caretLines : Int → List (List UInt8) → List (List UInt8)
  | _, [] => []
  | offset, line :: rest =>
      if 0 ≤ offset ∧ offset < line.length then
        chomp lineFeed carriageReturn line ::
          (List.replicate offset.toNat blank ++ [caret]) :: caretLines (-1) rest
      else chomp lineFeed carriageReturn line :: caretLines (offset - line.length) rest

/-- `sql_error`. -/
def SqlException.sqlError (e : SqlException) : Option (List UInt8) :=
  e.sql.map fun sql =>
    if 0 ≤ e.sqlOffset then join lineFeed (caretLines e.sqlOffset (lines lineFeed sql))
    else chomp lineFeed carriageReturn sql

/-- `message`. -/
def SqlException.message (e : SqlException) : List UInt8 :=
  match e.sqlError with
  | none => e.errorMsg
  | some sqlError => e.errorMsg ++ ":\n".toUTF8.toList ++ sqlError

/-! ## The loop -/

theorem caretLines_of_neg {offset : Int} (h : offset < 0) (rows : List (List UInt8)) :
    caretLines offset rows = rows.map (chomp lineFeed carriageReturn) := by
  induction rows generalizing offset with
  | nil => rfl
  | cons line rest ih =>
    rw [caretLines, if_neg (fun hin => absurd hin.1 (by omega)), ih (by omega), List.map_cons]

/-- The lines before the place of the error take their lengths off the offset. -/
theorem caretLines_append (k : Nat) (rows rest : List (List UInt8)) :
    caretLines (rows.flatten.length + k : Nat) (rows ++ rest) =
      rows.map (chomp lineFeed carriageReturn) ++ caretLines k rest := by
  induction rows with
  | nil => simp
  | cons line rows ih =>
    have hout : ¬ (0 ≤ (((line :: rows).flatten.length + k : Nat) : Int) ∧
        (((line :: rows).flatten.length + k : Nat) : Int) < line.length) := by
      simp only [List.flatten_cons, List.length_append]
      omega
    have hoffset : (((line :: rows).flatten.length + k : Nat) : Int) - line.length =
        (rows.flatten.length + k : Nat) := by
      simp only [List.flatten_cons, List.length_append]
      omega
    rw [List.cons_append, caretLines, if_neg hout, hoffset, ih, List.map_cons, List.cons_append]

theorem caretLines_here {k : Nat} {line : List UInt8} (h : k < line.length)
    (rest : List (List UInt8)) :
    caretLines k (line :: rest) =
      chomp lineFeed carriageReturn line :: (List.replicate k blank ++ [caret]) ::
        rest.map (chomp lineFeed carriageReturn) := by
  rw [caretLines, if_pos (by omega), Int.toNat_natCast, caretLines_of_neg (by decide)]

/-! ## Characters and their bytes -/

theorem encodes_newline : Encodes String.utf8EncodeChar '\n' lineFeed :=
  ⟨rfl, fun h => (Utf8.mem_encodeChar_iff rfl (by decide)).mp h⟩

theorem encodes_return : Encodes String.utf8EncodeChar '\r' carriageReturn :=
  ⟨rfl, fun h => (Utf8.mem_encodeChar_iff rfl (by decide)).mp h⟩

theorem utf8EncodeChar_ne_nil (c : Char) : String.utf8EncodeChar c ≠ [] := by
  rw [String.utf8EncodeChar]
  split_ifs <;> simp

theorem lines_encode (text : List Char) :
    lines lineFeed (Utf8.encode text) = (lines '\n' text).map Utf8.encode :=
  lines_flatMap utf8EncodeChar_ne_nil encodes_newline text

theorem chomp_encode (text : List Char) :
    chomp lineFeed carriageReturn (Utf8.encode text) = Utf8.encode (chomp '\n' '\r' text) :=
  chomp_flatMap utf8EncodeChar_ne_nil encodes_newline encodes_return text

theorem map_chomp_encode (rows : List (List Char)) :
    (rows.map Utf8.encode).map (chomp lineFeed carriageReturn) =
      (rows.map (chomp '\n' '\r')).map Utf8.encode := by
  rw [List.map_map, List.map_map]
  exact List.map_congr_left fun row _ => chomp_encode row

theorem encode_join (rows : List (List Char)) :
    Utf8.encode (join '\n' rows) = join lineFeed (rows.map Utf8.encode) :=
  Utf8.encode_intercalate ['\n'] rows

theorem encode_flatten (rows : List (List Char)) :
    Utf8.encode rows.flatten = (rows.map Utf8.encode).flatten := by
  induction rows with
  | nil => rfl
  | cons row rows ih => rw [List.flatten_cons, Utf8.encode_append, ih, List.map_cons,
      List.flatten_cons]

theorem encode_caretLine (k : Nat) :
    Utf8.encode (List.replicate k ' ' ++ ['^']) = List.replicate k blank ++ [caret] := by
  have hblanks : Utf8.encode (List.replicate k ' ') = List.replicate k blank := by
    induction k with
    | zero => rfl
    | succ k ih =>
      rw [List.replicate_succ, List.replicate_succ, ← ih]
      rfl
  rw [Utf8.encode_append, hblanks]
  rfl

/-- A text has as many bytes as characters when each is one byte. -/
theorem length_encode_eq_iff (text : List Char) :
    (Utf8.encode text).length = text.length ↔
      ∀ c ∈ text, (String.utf8EncodeChar c).length = 1 := by
  have hle : ∀ text : List Char, text.length ≤ (Utf8.encode text).length := by
    intro text
    induction text with
    | nil => exact Nat.le_refl 0
    | cons c text ih =>
      have hpos := List.length_pos_iff.mpr (utf8EncodeChar_ne_nil c)
      have hcons : (Utf8.encode (c :: text)).length =
          (String.utf8EncodeChar c).length + (Utf8.encode text).length := List.length_append
      rw [hcons, List.length_cons]
      omega
  induction text with
  | nil => simp [Utf8.encode]
  | cons c text ih =>
    have hpos := List.length_pos_iff.mpr (utf8EncodeChar_ne_nil c)
    have hcons : (Utf8.encode (c :: text)).length =
        (String.utf8EncodeChar c).length + (Utf8.encode text).length := List.length_append
    have htext := hle text
    rw [List.forall_mem_cons, hcons, List.length_cons]
    refine Iff.trans ?_ (and_congr Iff.rfl ih)
    omega

/-! ## The rendered text -/

/-- The lines of a text without their endings, with a caret under one of them, `k`
characters from its start. -/
def withCaret (rows : List (List Char)) (line : List Char) (k : Nat) (rows' : List (List Char)) :
    List Char :=
  join '\n' (rows.map (chomp '\n' '\r') ++ chomp '\n' '\r' line ::
    (List.replicate k ' ' ++ ['^']) :: rows'.map (chomp '\n' '\r'))

/-- The caret is drawn as many bytes from the start of the line as the error is. -/
theorem caretLines_encode (rows rows' : List (List Char)) (left : List Char) (c : Char)
    (right : List Char) :
    join lineFeed (caretLines (Utf8.encode (rows.flatten ++ left)).length
        ((rows ++ (left ++ c :: right) :: rows').map Utf8.encode)) =
      Utf8.encode (withCaret rows (left ++ c :: right) (Utf8.encode left).length rows') := by
  have hin : (Utf8.encode left).length < (Utf8.encode (left ++ c :: right)).length := by
    have hpos := List.length_pos_iff.mpr (utf8EncodeChar_ne_nil c)
    have hcons : Utf8.encode (c :: right) = String.utf8EncodeChar c ++ Utf8.encode right := rfl
    rw [Utf8.encode_append, hcons]
    simp only [List.length_append]
    omega
  have hoffset : (Utf8.encode (rows.flatten ++ left)).length =
      (rows.map Utf8.encode).flatten.length + (Utf8.encode left).length := by
    rw [Utf8.encode_append, encode_flatten, List.length_append]
  rw [hoffset, List.map_append, List.map_cons, caretLines_append, caretLines_here hin,
    map_chomp_encode, map_chomp_encode, chomp_encode, withCaret, encode_join, List.map_append,
    List.map_cons, List.map_cons, encode_caretLine]

theorem withCaret_inj {rows rows' : List (List Char)} {line : List Char} {k n : Nat} :
    withCaret rows line k rows' = withCaret rows line n rows' ↔ k = n := by
  constructor
  · intro h
    have hrows : ∀ row : List Char, rows.map (chomp '\n' '\r') ++ chomp '\n' '\r' line :: row ::
        rows'.map (chomp '\n' '\r') = (rows.map (chomp '\n' '\r') ++ [chomp '\n' '\r' line]) ++
          row :: rows'.map (chomp '\n' '\r') := fun row =>
      List.append_cons _ _ _
    rw [withCaret, withCaret, hrows, hrows, join_append_cons_inj] at h
    have hlength := congrArg List.length h
    simpa using hlength
  · rintro rfl
    rfl

section Message

variable {status : Nat} {errorMsg : List UInt8} {offset : Int} {text : List Char}
  {e : SqlException}

/-- The message begins with what SQLite says about the error. -/
theorem message_eq (hnul : '\x00' ∉ text)
    (h : raiseWithSql true status errorMsg offset (some (Utf8.encode text)) = some e) :
    e.message = errorMsg ++ ":\n".toUTF8.toList ++
      if 0 ≤ offset then join lineFeed (caretLines offset ((lines '\n' text).map Utf8.encode))
      else Utf8.encode (chomp '\n' '\r' text) := by
  obtain ⟨klass, -, rfl⟩ := Option.map_eq_some_iff.mp h
  rw [SqlException.message, SqlException.sqlError, Option.map_some, Option.map_some,
    Query.cString_encode hnul, lines_encode, chomp_encode]
  rfl

/-- The caret stands under the character exactly when the characters before it in its
line are one byte each. -/
theorem message_at_iff {rows rows' : List (List Char)} {left right : List Char} {c : Char}
    (hnul : '\x00' ∉ text) (hlines : lines '\n' text = rows ++ (left ++ c :: right) :: rows')
    (h : raiseWithSql true status errorMsg (Utf8.encode (rows.flatten ++ left)).length
      (some (Utf8.encode text)) = some e) :
    e.message = errorMsg ++ ":\n".toUTF8.toList ++
        Utf8.encode (withCaret rows (left ++ c :: right) left.length rows') ↔
      ∀ d ∈ left, (String.utf8EncodeChar d).length = 1 := by
  rw [message_eq hnul h, if_pos (Int.natCast_nonneg _), hlines, caretLines_encode,
    List.append_cancel_left_eq, Utf8.encode_injective.eq_iff, withCaret_inj, length_encode_eq_iff]

end Message

/-- For an error at a character, the message has the lines of the text with a caret
under that character exactly when the characters before it in its line are one
byte each. For an error without a place it is the text without the last line ending,
and these are the lines joined unless a line before the last ends with `"\r\n"`. -/
theorem message_caret_iff (text : List Char) (hnul : '\x00' ∉ text) (status : Nat)
    (errorMsg : List UInt8) :
    (∀ before c after e, text = before ++ c :: after →
      raiseWithSql true status errorMsg (Utf8.encode before).length (some (Utf8.encode text)) =
        some e →
      ∃ rows left right rows', lines '\n' text = rows ++ (left ++ c :: right) :: rows' ∧
        rows.flatten ++ left = before ∧
        (e.message = errorMsg ++ ":\n".toUTF8.toList ++
            Utf8.encode (withCaret rows (left ++ c :: right) left.length rows') ↔
          ∀ d ∈ left, (String.utf8EncodeChar d).length = 1)) ∧
    ∀ offset e, offset < 0 →
      raiseWithSql true status errorMsg offset (some (Utf8.encode text)) = some e →
      e.message = errorMsg ++ ":\n".toUTF8.toList ++ Utf8.encode (chomp '\n' '\r' text) ∧
        (e.message = errorMsg ++ ":\n".toUTF8.toList ++
            Utf8.encode (join '\n' ((lines '\n' text).map (chomp '\n' '\r'))) ↔
          ∀ row ∈ (lines '\n' text).dropLast, ¬ ['\r', '\n'] <:+ row) := by
  constructor
  · rintro before c after e rfl he
    obtain ⟨rows, left, right, rows', hlines, rfl⟩ :
        ∃ rows left right rows', lines '\n' (before ++ c :: after) =
          rows ++ (left ++ c :: right) :: rows' ∧ rows.flatten ++ left = before :=
      lines_append_cons before c after
    exact ⟨rows, left, right, rows', hlines, rfl, message_at_iff hnul hlines he⟩
  · intro offset e hoffset he
    have hjoined : _ ∧ (join '\n' ((lines '\n' text).map (chomp '\n' '\r')) =
        chomp '\n' '\r' (lines '\n' text).flatten ↔ _) :=
      join_map_chomp (by decide) (lines_ne_nil text) (lines_dropLast text)
    rw [flatten_lines] at hjoined
    rw [message_eq hnul he, if_neg (by omega)]
    refine ⟨rfl, ?_⟩
    rw [List.append_cancel_left_eq, Utf8.encode_injective.eq_iff, eq_comm]
    exact hjoined.2

/-- A plain text, with the error in its second line. -/
theorem message_second_line :
    ∃ e rows left right rows', raiseWithSql true 1 [] 7
        (some (Utf8.encode "select\nfrom foo".toList)) = some e ∧
      lines '\n' "select\nfrom foo".toList = rows ++ (left ++ 'f' :: right) :: rows' ∧
      rows.flatten ++ left = "select\n".toList ∧
      (e.message = [] ++ ":\n".toUTF8.toList ++
          Utf8.encode (withCaret rows (left ++ 'f' :: right) left.length rows') ↔
        ∀ d ∈ left, (String.utf8EncodeChar d).length = 1) := by
  obtain ⟨rows, left, right, rows', hplace⟩ :=
    (message_caret_iff "select\nfrom foo".toList (by decide) 1 []).1 "select\n".toList 'f'
      "rom foo".toList _ rfl rfl
  exact ⟨_, rows, left, right, rows', rfl, hplace⟩

/-- The error of this text is after a character of two bytes. -/
theorem message_after_accent :
    ¬ ∀ (text : List Char) (status : Nat) (errorMsg : List UInt8), '\x00' ∉ text →
      ∀ before c after e, text = before ++ c :: after →
        raiseWithSql true status errorMsg (Utf8.encode before).length
          (some (Utf8.encode text)) = some e →
        ∀ rows left right rows', lines '\n' text = rows ++ (left ++ c :: right) :: rows' →
          rows.flatten ++ left = before →
          e.message = errorMsg ++ ":\n".toUTF8.toList ++
            Utf8.encode (withCaret rows (left ++ c :: right) left.length rows') := by
  intro hclaim
  have hnul : '\x00' ∉ "select 'é', from foo".toList := by decide
  have hlines : lines '\n' "select 'é', from foo".toList =
      [] ++ ("select 'é', ".toList ++ 'f' :: "rom foo".toList) :: [] := by decide
  obtain ⟨e, he⟩ : ∃ e, raiseWithSql true 1 [] (Utf8.encode "select 'é', ".toList).length
      (some (Utf8.encode "select 'é', from foo".toList)) = some e := ⟨_, rfl⟩
  have hmessage := hclaim "select 'é', from foo".toList 1 [] hnul "select 'é', ".toList 'f'
    "rom foo".toList e rfl he [] "select 'é', ".toList "rom foo".toList [] hlines rfl
  have hbytes := (message_at_iff hnul hlines he).mp hmessage 'é' (by decide)
  cases hbytes

end Sqlite3Ruby.ErrorMessage
