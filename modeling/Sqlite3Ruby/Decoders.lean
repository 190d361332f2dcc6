import Sqlite3Ruby.Callback

/-!
# The three decoders

A value of SQLite comes to Ruby as the argument of a function, as a column of a row and,
if it is a text, as an argument of a collation. The last two convert a text to
`Encoding.default_internal`.
-/

namespace Sqlite3Ruby

/-- Ruby's tables for the encodings that are known by their index. -/
structure EncodingTables where
  asciiCompatible : Nat → Bool
  encode : Nat → List Char → Option (List UInt8)

namespace Encoding

variable (tables : EncodingTables)

/-- `rb_enc_asciicompat`. -/
def isAsciiCompatible : Encoding → Bool
  | ascii8bit | utf8 | usAscii => true
  | utf16 _ => false
  | other index => tables.asciiCompatible index

/-- The characters in this encoding, if it has them. -/
def encode (cs : List Char) : Encoding → Option (List UInt8)
  | utf8 => some (Utf8.encode cs)
  | utf16 order => some (order.toBytes (Utf16.encode cs))
  | other index => tables.encode index cs
  | ascii8bit | usAscii => none

/-- The encoding is able to represent this UTF-8 text. Binary takes any bytes. -/
def Represents (enc : Encoding) (bytes : List UInt8) : Prop :=
  enc = ascii8bit ∨ (enc.isAsciiCompatible tables = true ∧ bytes.all (· < 128) = true) ∨
    ∃ cs, bytes = Utf8.encode cs ∧ (enc.encode tables cs).isSome = true

end Encoding

/-- `rb_str_export_to_enc` of a UTF-8 string. One that cannot be converted is left alone. -/
def strExportToEnc (tables : EncodingTables) (enc : Encoding) (str : RString) : RString :=
  if str.encoding = enc then str
  else if (enc.isAsciiCompatible tables && str.bytes.all (· < 128)) || enc = .ascii8bit then
    { str with encoding := enc }
  else
    match (Utf8.decode str.bytes).bind (enc.encode tables) with
    | some bytes => ⟨.string, enc, bytes⟩
    | none => str

/-- One column of a row, as `Statement#step` decodes it. -/
def stepColumn (tables : EncodingTables) (internalEncoding : Option Encoding) :
    SqliteValue → Value
  | .integer n => .integer n.toInt
  | .float d => .float d.1
  | .text bytes =>
      let val : RString := ⟨.string, .utf8, bytes.1⟩
      match internalEncoding with
      | some enc => .string (strExportToEnc tables enc val)
      | none => .string val
  | .blob bytes => strNew bytes.1
  | .null => .nil

/-- The argument of a collation, with `rb_str_export_to_enc` for the conversion. -/
def collationString (tables : EncodingTables) (internalEncoding : Option Encoding) :
    List UInt8 → RString :=
  comparatorString (internalEncoding.map (strExportToEnc tables))

/-- The decoders make the same of a value. -/
structure DecodedSame (tables : EncodingTables) (internalEncoding : Option Encoding)
    (x : SqliteValue) : Prop where
  column : sqlite3val2rb x = stepColumn tables internalEncoding x
  collation : ∀ bytes, x = .text bytes →
    sqlite3val2rb x = .string (collationString tables internalEncoding bytes.1)

/-- With `Encoding.default_internal` nil this is the decoder of the other modules. -/
theorem stepColumn_none (tables : EncodingTables) (x : SqliteValue) :
    stepColumn tables none x = columnToRb x := by
  cases x <;> rfl

/-- A row and a collation see the same text. -/
theorem stepColumn_text (tables : EncodingTables) (internalEncoding : Option Encoding)
    (bytes : Payload) :
    stepColumn tables internalEncoding (.text bytes) =
      .string (collationString tables internalEncoding bytes.1) := by
  cases internalEncoding <;> rfl

/-- A text that can be converted has the encoding it is converted to. -/
theorem strExportToEnc_encoding {tables : EncodingTables} {enc : Encoding} {bytes : List UInt8}
    (h : enc.Represents tables bytes) :
    (strExportToEnc tables enc ⟨.string, .utf8, bytes⟩).encoding = enc := by
  rw [strExportToEnc]
  split
  · assumption
  · split
    · rfl
    · rename_i hascii
      simp only [Bool.or_eq_true, Bool.and_eq_true, decide_eq_true_eq, not_or] at hascii
      rcases h with rfl | hcompatible | ⟨cs, rfl, hsome⟩
      · exact absurd rfl hascii.2
      · exact absurd hcompatible hascii.1
      · obtain ⟨converted, hconverted⟩ := Option.isSome_iff_exists.mp hsome
        simp only [Utf8.decode_encode, Option.bind_some, hconverted]

theorem strExportToEnc_utf8 (tables : EncodingTables) (bytes : List UInt8) :
    strExportToEnc tables .utf8 ⟨.string, .utf8, bytes⟩ = ⟨.string, .utf8, bytes⟩ :=
  if_pos rfl

/-- A function gets the text as the others do when they do not convert it. -/
theorem decoded_text_iff (tables : EncodingTables) (internalEncoding : Option Encoding)
    (bytes : Payload)
    (hrepresents : ∀ enc, internalEncoding = some enc → enc.Represents tables bytes.1) :
    sqlite3val2rb (.text bytes) = .string (collationString tables internalEncoding bytes.1) ↔
      ∀ enc, internalEncoding = some enc → enc = .utf8 := by
  cases internalEncoding with
  | none => exact iff_of_true rfl (by simp)
  | some enc =>
      constructor
      · rintro h enc' henc
        obtain rfl := Option.some.inj henc
        have hencoding := congrArg RString.encoding (Value.string.inj h)
        change Encoding.utf8 = (strExportToEnc tables enc ⟨.string, .utf8, bytes.1⟩).encoding
          at hencoding
        rw [strExportToEnc_encoding (hrepresents enc rfl)] at hencoding
        exact hencoding.symm
      · intro h
        obtain rfl := h enc rfl
        exact congrArg Value.string (strExportToEnc_utf8 tables bytes.1).symm

/-- The decoders agree on a value exactly when it is no text, or the default internal
encoding is nil or UTF-8. -/
theorem decoders_agree_iff (tables : EncodingTables) (internalEncoding : Option Encoding)
    (x : SqliteValue)
    (hrepresents : ∀ enc bytes, internalEncoding = some enc → x = .text bytes →
      enc.Represents tables bytes.1) :
    DecodedSame tables internalEncoding x ↔
      ∀ enc bytes, internalEncoding = some enc → x = .text bytes → enc = .utf8 := by
  cases x with
  | text bytes =>
      have htext := decoded_text_iff tables internalEncoding bytes
        fun enc henc => hrepresents enc bytes henc rfl
      constructor
      · intro h enc _ henc _
        exact htext.mp (h.collation bytes rfl) enc henc
      · intro h
        have hsame := htext.mpr fun enc henc => h enc bytes henc rfl
        refine ⟨hsame.trans (stepColumn_text tables internalEncoding bytes).symm, ?_⟩
        rintro _ hbytes
        obtain rfl := SqliteValue.text.inj hbytes
        exact hsame
  | null => exact iff_of_true ⟨rfl, by simp⟩ (by simp)
  | integer n => exact iff_of_true ⟨rfl, by simp⟩ (by simp)
  | float d => exact iff_of_true ⟨rfl, by simp⟩ (by simp)
  | blob bytes => exact iff_of_true ⟨rfl, by simp⟩ (by simp)

/-- ISO-8859-1 alone. -/
def latin1Tables : EncodingTables where
  asciiCompatible _ := true
  encode _ cs :=
    if cs.all (·.toNat < 256) then some (cs.map fun c => UInt8.ofNat c.toNat) else none

/-- An é in UTF-8. -/
def accentText : SqliteValue := .text ⟨[0xC3, 0xA9], by decide⟩

theorem utf8Internal_agrees : DecodedSame latin1Tables (some .utf8) accentText := by
  refine (decoders_agree_iff latin1Tables (some .utf8) accentText ?_).mpr ?_
  · rintro enc bytes henc hbytes
    obtain rfl := Option.some.inj henc
    obtain rfl := SqliteValue.text.inj hbytes
    exact Or.inr (Or.inr ⟨['é'], rfl, rfl⟩)
  · rintro enc bytes henc -
    exact (Option.some.inj henc).symm

/-- With ISO-8859-1 as the internal encoding, a row has the é in it and a function has not. -/
theorem latin1Internal_disagrees :
    Encoding.Represents latin1Tables (.other 0) [0xC3, 0xA9] ∧
      ¬ DecodedSame latin1Tables (some (.other 0)) accentText := by
  have hrepresents : Encoding.Represents latin1Tables (.other 0) [0xC3, 0xA9] :=
    Or.inr (Or.inr ⟨['é'], rfl, rfl⟩)
  refine ⟨hrepresents, fun h => ?_⟩
  have hencoding := congrArg RString.encoding (Value.string.inj h.column)
  change Encoding.utf8 =
    (strExportToEnc latin1Tables (.other 0) ⟨.string, .utf8, [0xC3, 0xA9]⟩).encoding at hencoding
  rw [strExportToEnc_encoding hrepresents] at hencoding
  cases hencoding

end Sqlite3Ruby
