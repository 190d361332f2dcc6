import Sqlite3Ruby.Ruby.Value

/-!
# Values on their way between Ruby and SQLite

`sqlite3val2rb` and the row decoder of `Statement#step` take a SQLite value to
Ruby; `set_sqlite3_func_result` and `bind_param` take a Ruby value to SQLite.

## Implementation notes

The two encoders end in a call of SQLite with a buffer and a length in a C
`int`. The call is kept as the code makes it, and what SQLite takes from it is
a separate definition.
-/

namespace Sqlite3Ruby

/-- Bytes that SQLite can hold. -/
abbrev Payload := {bytes : List UInt8 // bytes.length < 2 ^ 31}

/-- The doubles that SQLite can hold. -/
abbrev Real := {d : Binary64 // d.isNaN = false}

/-- A value of one of the five storage classes. -/
inductive SqliteValue
  | null
  | integer (n : Int64)
  | float (d : Real)
  | text (bytes : Payload)
  | blob (bytes : Payload)
  deriving DecidableEq

/-! ## From SQLite to Ruby -/

/-- `rb_utf8_str_new`. -/
def utf8StrNew (bytes : List UInt8) : Value := .string ⟨.string, .utf8, bytes⟩

/-- `rb_str_new`. -/
def strNew (bytes : List UInt8) : Value := .string ⟨.string, .ascii8bit, bytes⟩

/-- `sqlite3val2rb`. -/
def sqlite3val2rb : SqliteValue → Value
  | .integer n => .integer n.toInt
  | .float d => .float d.1
  | .text bytes => utf8StrNew bytes.1
  | .blob bytes => strNew bytes.1
  | .null => .nil

/-- One column of a row, as `Statement#step` decodes it with
`Encoding.default_internal` nil. -/
def columnToRb : SqliteValue → Value
  | .integer n => .integer n.toInt
  | .float d => .float d.1
  | .text bytes => utf8StrNew bytes.1
  | .blob bytes => strNew bytes.1
  | .null => .nil

/-! ## Calls that hand SQLite a value -/

/-- The value in the arguments of a `sqlite3_result_*` or `sqlite3_bind_*` call.
A length is the C `int` argument. -/
inductive ValueCall
  | null
  | int64 (n : Int64)
  | double (d : Binary64)
  | text (bytes : List UInt8) (length : Int)
  | text16 (bytes : List UInt8) (length : Int)
  | blob (bytes : List UInt8) (length : Int)
  deriving DecidableEq

/-- `(int)n`, for a length `n`. -/
def cInt (n : Nat) : Int := (n : Int).bmod (2 ^ 32)

/-- What SQLite makes of a call. Its documentation leaves the rest open: a blob
of negative length, and text that is not well-formed UTF-16. -/
inductive Stored
  | value (x : SqliteValue)
  | tooBig
  | unspecified
  deriving DecidableEq

/-- SQLite refuses strings and blobs from `2 ^ 31` bytes on. -/
def Stored.ofBytes (storage : Payload → SqliteValue) (bytes : List UInt8) : Stored :=
  if h : bytes.length < 2 ^ 31 then .value (storage ⟨bytes, h⟩) else .tooBig

/-- A NaN is stored as NULL. -/
def SqliteValue.ofDouble (d : Binary64) : SqliteValue :=
  if h : d.isNaN = false then .float ⟨d, h⟩ else .null

/-- A negative length of a text stands for "up to the first NUL". -/
def textBytes (bytes : List UInt8) (length : Int) : List UInt8 :=
  if length < 0 then bytes.takeWhile (· ≠ 0) else bytes.take length.toNat

/-- The same for UTF-16, whose terminator is a NUL code unit. -/
def text16Bytes : List UInt8 → Int → List UInt8
  | a :: b :: bytes, length =>
      if length < 0 then if a = 0 ∧ b = 0 then [] else a :: b :: text16Bytes bytes length
      else (a :: b :: bytes).take length.toNat
  | bytes, _ => bytes

/-- The characters of code units in native byte order, or in the order of their
byte-order mark, which is taken off. -/
def readUnits : List UInt16 → Option (List Char)
  | 0xFEFF :: units => Utf16.decode units
  | 0xFFFE :: units => Utf16.decode (units.map Utf16.swap)
  | units => Utf16.decode units

/-- What SQLite makes of a call, in a database with UTF-8 text. -/
def ValueCall.stored (native : Utf16.ByteOrder) : ValueCall → Stored
  | .null => .value .null
  | .int64 n => .value (.integer n)
  | .double d => .value (.ofDouble d)
  | .text bytes length => .ofBytes .text (textBytes bytes length)
  | .text16 bytes length =>
      match readUnits (native.ofBytes (text16Bytes bytes length)) with
      | some cs => .ofBytes .text (Utf8.encode cs)
      | none => .unspecified
  | .blob bytes length =>
      if length < 0 then .unspecified else .ofBytes .blob (bytes.take length.toNat)

theorem cInt_of_lt {n : Nat} (hn : n < 2 ^ 31) : cInt n = n := by
  unfold cInt
  rw [Int.bmod_eq_of_le] <;> omega

/-- The low 32 bits, as two's complement. -/
theorem cInt_cases (n : Nat) :
    (n % 2 ^ 32 < 2 ^ 31 ∧ cInt n = (n % 2 ^ 32 : Nat)) ∨
      (2 ^ 31 ≤ n % 2 ^ 32 ∧ cInt n = (n % 2 ^ 32 : Nat) - 2 ^ 32) := by
  have hmod : (n : Int) % (2 ^ 32 : Nat) = (n % 2 ^ 32 : Nat) := (Int.natCast_mod n _).symm
  rcases Nat.lt_or_ge (n % 2 ^ 32) (2 ^ 31) with hlow | hhigh
  · refine Or.inl ⟨hlow, ?_⟩
    exact (Int.bmod_eq_emod_of_lt (by omega)).trans hmod
  · refine Or.inr ⟨hhigh, ?_⟩
    have h := Int.bmod_neg (n : Int) (2 ^ 32) (by omega)
    exact h.trans (congrArg (· - ((2 ^ 32 : Nat) : Int)) hmod)

theorem textBytes_cInt {bytes : List UInt8} (h : bytes.length < 2 ^ 31) :
    textBytes bytes (cInt bytes.length) = bytes := by
  simp [textBytes, cInt_of_lt h]

theorem ofBytes_of_lt (storage : Payload → SqliteValue) {bytes : List UInt8}
    (h : bytes.length < 2 ^ 31) : Stored.ofBytes storage bytes = .value (storage ⟨bytes, h⟩) :=
  dif_pos h

@[simp] theorem ofDouble_val (d : Real) : SqliteValue.ofDouble d.1 = .float d :=
  dif_pos d.2

/-- A text call with the length of its buffer stores the buffer. -/
theorem stored_text (native : Utf16.ByteOrder) {bytes : List UInt8} (h : bytes.length < 2 ^ 31) :
    (ValueCall.text bytes (cInt bytes.length)).stored native = .value (.text ⟨bytes, h⟩) := by
  rw [ValueCall.stored, textBytes_cInt h, ofBytes_of_lt _ h]

/-- A blob call with the length of its buffer stores the buffer. -/
theorem stored_blob (native : Utf16.ByteOrder) {bytes : List UInt8} (h : bytes.length < 2 ^ 31) :
    (ValueCall.blob bytes (cInt bytes.length)).stored native = .value (.blob ⟨bytes, h⟩) := by
  have hnonneg : ¬ (bytes.length : Int) < 0 := by omega
  rw [ValueCall.stored, cInt_of_lt h, if_neg hnonneg, Int.toNat_natCast, List.take_length,
    ofBytes_of_lt _ h]

/-! ## Integers -/

/-- The value of `rb_integer_pack` for one 64-bit word: the sign, doubled when
the word overflows. The word itself is `v` modulo `2 ^ 64`. -/
def integerPackSign (v : Int) : Int :=
  if v < -2 ^ 64 then -2
  else if v < 0 then -1
  else if v = 0 then 0
  else if v < 2 ^ 64 then 1
  else 2

/-- The switch of `bignum_to_int64` over the value `t` of `rb_integer_pack`. -/
def bignumSwitch (t : Int) (result : Int64) : Option Int64 :=
  if t = -2 ∨ t = 2 then none
  else if t = 1 ∧ result.toInt < 0 then none
  else if t = -1 ∧ 0 ≤ result.toInt then none
  else some result

/-- `bignum_to_int64`, in its form with `rb_integer_pack`. -/
def bignumToInt64 (v : Int) : Option Int64 :=
  bignumSwitch (integerPackSign v) (Int64.ofInt v)

/-- The integers of 64 bits. -/
def IsInt64 (v : Int) : Prop := -2 ^ 63 ≤ v ∧ v < 2 ^ 63

instance (v : Int) : Decidable (IsInt64 v) := inferInstanceAs (Decidable (_ ∧ _))

theorem toInt_ofInt {v : Int} (h : IsInt64 v) : (Int64.ofInt v).toInt = v :=
  Int64.toInt_ofInt_of_le h.1 h.2

theorem isInt64_toInt (n : Int64) : IsInt64 n.toInt := ⟨n.le_toInt, n.toInt_lt⟩

/-- The packed word of an integer just outside of 64 bits has the other sign. -/
theorem toInt_ofInt_wraps {v : Int} (h : ¬ IsInt64 v) (hlow : -2 ^ 64 ≤ v) (hhigh : v < 2 ^ 64) :
    v < 0 ∧ 0 ≤ (Int64.ofInt v).toInt ∨ 0 < v ∧ (Int64.ofInt v).toInt < 0 := by
  have hword : (Int64.ofInt v).toInt = v.bmod (2 ^ 64) := Int64.toInt_ofInt
  rw [hword, Int.bmod]
  rw [IsInt64] at h
  split <;> omega

/-- Without overflow the packed sign is the sign. -/
theorem integerPackSign_cases {v : Int} (hlow : -2 ^ 64 ≤ v) (hhigh : v < 2 ^ 64) :
    v < 0 ∧ integerPackSign v = -1 ∨ v = 0 ∧ integerPackSign v = 0 ∨
      0 < v ∧ integerPackSign v = 1 := by
  rw [integerPackSign]
  split_ifs <;> omega

/-- The conversion succeeds exactly on the integers of 64 bits. -/
theorem bignumToInt64_eq (v : Int) :
    bignumToInt64 v = if IsInt64 v then some (Int64.ofInt v) else none := by
  by_cases hrange : -2 ^ 64 ≤ v ∧ v < 2 ^ 64
  · have hsign := integerPackSign_cases hrange.1 hrange.2
    by_cases h : IsInt64 v
    · have hsame := toInt_ofInt h
      rw [if_pos h, bignumToInt64]
      rcases hsign with ⟨hv, hsign⟩ | ⟨-, hsign⟩ | ⟨hv, hsign⟩
      · simp [bignumSwitch, hsign, hsame, hv, -Int64.toInt_ofInt]
      · simp [bignumSwitch, hsign]
      · simp [bignumSwitch, hsign, hsame, Int.le_of_lt hv, -Int64.toInt_ofInt]
    · have hwraps := toInt_ofInt_wraps h hrange.1 hrange.2
      have hzero : v ≠ 0 := by
        rintro rfl
        exact h (by decide)
      rw [if_neg h, bignumToInt64]
      rcases hsign with ⟨hv, hsign⟩ | ⟨hv, -⟩ | ⟨hv, hsign⟩
      · have hword : 0 ≤ (Int64.ofInt v).toInt := by omega
        simp [bignumSwitch, hsign, hword, -Int64.toInt_ofInt]
      · exact absurd hv hzero
      · have hword : (Int64.ofInt v).toInt < 0 := by omega
        simp [bignumSwitch, hsign, hword, -Int64.toInt_ofInt]
  · have hsign : integerPackSign v = -2 ∨ integerPackSign v = 2 := by
      rw [integerPackSign]
      split_ifs <;> omega
    have hnot : ¬ IsInt64 v := by
      rw [IsInt64]
      omega
    rw [if_neg hnot, bignumToInt64, bignumSwitch, if_pos hsign]

/-- `NUM2DBL` of an Integer or a Float. -/
def num2dbl : Int → Binary64 := Binary64.ofInt

/-! ## From Ruby to SQLite -/

/-- Strings that are bound or returned as blobs. -/
def RString.isBlob (s : RString) : Bool := s.klass = .blob || s.encoding = .ascii8bit

/-- `set_sqlite3_func_result`: the call that posts the result. -/
def setSqlite3FuncResult (long : SizeofLong) (result : Value) : Outcome ValueCall :=
  match result with
  | .nil => .ok .null
  | .integer n =>
      if long.isFixnum n then .ok (.int64 (Int64.ofInt n))
      else if long.bytes < 8 then
        match bignumToInt64 n with
        | some num64 => .ok (.int64 num64)
        | none => .ok (.double (num2dbl n))
      else .ok (.double (num2dbl n))
  | .float d => .ok (.double d)
  | .string s =>
      if s.isBlob then .ok (.blob s.bytes (cInt s.bytes.length))
      else .ok (.text s.bytes (cInt s.bytes.length))
  | .true_ | .false_ | .object _ _ =>
      .raise ⟨.RuntimeError, "can't return " ++ result.className⟩

/-- The values a function can return: NULL, numbers and strings. -/
def Value.isResult : Value → Bool
  | .nil | .integer _ | .float _ | .string _ => true
  | .true_ | .false_ | .object _ _ => false

theorem setSqlite3FuncResult_returns_iff (long : SizeofLong) (result : Value) :
    (setSqlite3FuncResult long result).Returns ↔ result.isResult = true := by
  cases result with
  | nil => exact iff_of_true (Outcome.returns_ok _) rfl
  | float d => exact iff_of_true (Outcome.returns_ok _) rfl
  | integer n =>
      refine iff_of_true ?_ rfl
      rw [setSqlite3FuncResult]
      cases bignumToInt64 n <;> split_ifs <;> exact Outcome.returns_ok _
  | string s =>
      refine iff_of_true ?_ rfl
      rw [setSqlite3FuncResult]
      split_ifs <;> exact Outcome.returns_ok _
  | true_ => exact iff_of_false (Outcome.not_returns_raise _) (by decide)
  | false_ => exact iff_of_false (Outcome.not_returns_raise _) (by decide)
  | object klass toInt => exact iff_of_false (Outcome.not_returns_raise _) (by simp [Value.isResult])

end Sqlite3Ruby
