import Sqlite3Ruby.Binding

/-!
# The lengths of strings

Six calls hand a string to SQLite with its length, a `long` that is cast to an `int`. A
negative length of a text or of SQL stands for "up to the first NUL", and SQLite rejects a
negative length of a blob.
-/

namespace Sqlite3Ruby

/-- What a buffer is handed over as. -/
inductive BufferKind
  | text
  | text16
  | blob
  | sql
  deriving DecidableEq

/-- A buffer, with the length that SQLite is given for it. -/
structure Handed where
  kind : BufferKind
  bytes : List UInt8
  length : Int

/-- What SQLite takes of a buffer, unless it rejects the length. -/
def Handed.taken (h : Handed) : Option (List UInt8) :=
  match h.kind with
  | .text | .sql => some (textBytes h.bytes h.length)
  | .text16 => some (text16Bytes h.bytes h.length)
  | .blob => if h.length < 0 then none else some (h.bytes.take h.length.toNat)

/-- SQLite rejects the length, or what it takes is too big for a value. -/
def Handed.Refused (h : Handed) : Prop :=
  match h.taken with
  | some bytes => h.kind ≠ .sql ∧ 2 ^ 31 ≤ bytes.length
  | none => True

/-- SQLite gets the whole buffer, or the call raises. -/
def Handed.Whole (h : Handed) : Prop := h.taken = some h.bytes ∨ h.Refused

/-- Nothing is cut off, and the length is that of the buffer. -/
structure Handed.Intact (h : Handed) : Prop where
  whole : h.Whole
  length : h.length = h.bytes.length

/-! ## The call sites -/

/-- The ways of a string into SQLite. -/
inductive Entry
  | bindParam
  | functionResult
  | prepare
  deriving DecidableEq

def ValueCall.handed : ValueCall → Option Handed
  | .text bytes length => some ⟨.text, bytes, length⟩
  | .text16 bytes length => some ⟨.text16, bytes, length⟩
  | .blob bytes length => some ⟨.blob, bytes, length⟩
  | .null | .int64 _ | .double _ => none

/-- The call that a string ends in. `Statement#initialize` encodes the text of a statement. -/
def Entry.handed (host : Host) (s : RString) : Entry → Outcome (Option Handed)
  | bindParam => ValueCall.handed <$> bindCall host (.string s)
  | functionResult => ValueCall.handed <$> setSqlite3FuncResult host.long (.string s)
  | prepare => (fun sql => some ⟨.sql, sql, cInt sql.length⟩) <$> strEncodeUtf8 host s

/-- What the buffer is handed over as. -/
def Entry.kind (s : RString) : Entry → BufferKind
  | bindParam =>
      if s.isBlob then .blob
      else
        match s.encoding with
        | .utf16 _ => .text16
        | _ => .text
  | functionResult => if s.isBlob then .blob else .text
  | prepare => .sql

/-- The buffer: the string, or what it is encoded to. -/
def Entry.buffer (host : Host) (s : RString) (entry : Entry) : Outcome (List UInt8) :=
  match entry, entry.kind s with
  | bindParam, .text | prepare, _ => strEncodeUtf8 host s
  | _, _ => .ok s.bytes

/-- A string gets into SQLite intact, if it gets there. -/
def Entry.Intact (host : Host) (s : RString) (entry : Entry) : Prop :=
  ∀ h, entry.handed host s = .ok (some h) → h.Intact

/-- What keeps a long buffer whole whose length comes out negative: SQLite rejects a blob, and
a text that is too big up to its first NUL. -/
def BufferKind.NegativeKept (kind : BufferKind) (bytes : List UInt8) : Prop :=
  match kind with
  | .blob => True
  | .sql => 0 ∉ bytes
  | .text => 2 ^ 31 ≤ (textBytes bytes (-1)).length
  | .text16 => 2 ^ 31 ≤ (text16Bytes bytes (-1)).length

/-- Where nothing is cut off. -/
def BufferKind.NothingCut (kind : BufferKind) (bytes : List UInt8) : Prop :=
  bytes.length < 2 ^ 31 ∨ 2 ^ 31 ≤ bytes.length % 2 ^ 32 ∧ kind.NegativeKept bytes

/-- Every call narrows the length of its buffer. -/
theorem handed_eq (host : Host) (s : RString) (entry : Entry) :
    entry.handed host s =
      (fun bytes => some ⟨entry.kind s, bytes, cInt bytes.length⟩) <$> entry.buffer host s := by
  cases entry with
  | prepare => rfl
  | functionResult =>
      cases hblob : s.isBlob with
      | true => simp [Entry.handed, Entry.buffer, Entry.kind, setSqlite3FuncResult, hblob,
          ValueCall.handed]
      | false => simp [Entry.handed, Entry.buffer, Entry.kind, setSqlite3FuncResult, hblob,
          ValueCall.handed]
  | bindParam =>
      cases hblob : s.isBlob with
      | true => simp [Entry.handed, Entry.buffer, Entry.kind, bindCall, hblob, ValueCall.handed]
      | false =>
          cases henc : s.encoding with
          | utf16 order =>
              simp [Entry.handed, Entry.buffer, Entry.kind, bindCall, hblob, henc,
                ValueCall.handed]
          | _ =>
              cases htext : strEncodeUtf8 host s <;>
                simp [Entry.handed, Entry.buffer, Entry.kind, bindCall, hblob, henc, htext,
                  ValueCall.handed]

/-! ## One call -/

theorem text16Bytes_nonneg {bytes : List UInt8} {length : Int} (h : 0 ≤ length)
    (hlong : 2 ≤ bytes.length) : text16Bytes bytes length = bytes.take length.toNat := by
  match bytes with
  | [] => simp at hlong
  | [a] => simp at hlong
  | a :: b :: rest => rw [text16Bytes, if_neg (by omega)]

/-- Any negative length stands for the first NUL. -/
theorem text16Bytes_neg {length : Int} (h : length < 0) :
    ∀ bytes : List UInt8, text16Bytes bytes length = text16Bytes bytes (-1)
  | [] => rfl
  | [_] => rfl
  | a :: b :: rest => by
      have hone : (-1 : Int) < 0 := by decide
      simp only [text16Bytes, if_pos h, if_pos hone, text16Bytes_neg h rest]

theorem textBytes_neg {length : Int} (h : length < 0) (bytes : List UInt8) :
    textBytes bytes length = textBytes bytes (-1) := by
  have hone : (-1 : Int) < 0 := by decide
  simp only [textBytes, if_pos h, if_pos hone]

variable (kind : BufferKind) (bytes : List UInt8)

/-- A length that is not negative takes the beginning of the buffer. -/
theorem taken_nonneg {length : Int} (h : 0 ≤ length) (hlong : 2 ≤ bytes.length) :
    (Handed.mk kind bytes length).taken = some (bytes.take length.toNat) := by
  have hneg : ¬ length < 0 := by omega
  cases kind with
  | text => simp [Handed.taken, textBytes, hneg]
  | sql => simp [Handed.taken, textBytes, hneg]
  | blob => simp [Handed.taken, hneg]
  | text16 => simp [Handed.taken, text16Bytes_nonneg h hlong]

theorem taken_short (h : bytes.length < 2 ^ 31) :
    (Handed.mk kind bytes (cInt bytes.length)).taken = some bytes := by
  have hneg : ¬ (bytes.length : Int) < 0 := by omega
  cases kind with
  | text => simp only [Handed.taken, textBytes_cInt h]
  | sql => simp only [Handed.taken, textBytes_cInt h]
  | text16 => simp only [Handed.taken, text16Bytes_cInt h]
  | blob =>
      simp only [Handed.taken, cInt_of_lt h, if_neg hneg, Int.toNat_natCast, List.take_length]

/-- A buffer whose length comes out too small is cut without an error. -/
theorem not_whole_of_low (hlong : 2 ^ 31 ≤ bytes.length) (hlow : bytes.length % 2 ^ 32 < 2 ^ 31) :
    ¬ (Handed.mk kind bytes (bytes.length % 2 ^ 32 : Nat)).Whole := by
  have htaken := taken_nonneg kind bytes (Int.natCast_nonneg (bytes.length % 2 ^ 32)) (by omega)
  rw [Int.toNat_natCast] at htaken
  rw [Handed.Whole, Handed.Refused, htaken]
  rintro (hall | ⟨-, hbig⟩)
  · have hlength := congrArg List.length (Option.some.inj hall)
    rw [List.length_take] at hlength
    change _ = bytes.length at hlength
    omega
  · rw [List.length_take] at hbig
    omega

theorem zero_not_mem_iff : 0 ∉ bytes ↔ textBytes bytes (-1) = bytes := by
  rw [textBytes, if_pos (by decide), List.takeWhile_eq_self_iff]
  constructor
  · intro h b hb
    have hne : b ≠ 0 := by
      rintro rfl
      exact h hb
    simpa using hne
  · intro h hzero
    simpa using h 0 hzero

/-- A length that comes out negative cuts a text at its first NUL. -/
theorem whole_negative_iff {length : Int} (hneg : length < 0) (hlong : 2 ^ 31 ≤ bytes.length) :
    (Handed.mk kind bytes length).Whole ↔ kind.NegativeKept bytes := by
  have hrefused {taken : List UInt8} :
      (taken = bytes ∨ 2 ^ 31 ≤ taken.length) ↔ 2 ^ 31 ≤ taken.length := by
    refine or_iff_right_of_imp ?_
    rintro rfl
    exact hlong
  cases kind with
  | blob => simp [BufferKind.NegativeKept, Handed.Whole, Handed.Refused, Handed.taken, hneg]
  | sql =>
      rw [BufferKind.NegativeKept, zero_not_mem_iff]
      simp [Handed.Whole, Handed.Refused, Handed.taken, textBytes_neg hneg]
  | text =>
      rw [BufferKind.NegativeKept, ← hrefused]
      simp only [Handed.Whole, Handed.Refused, Handed.taken, textBytes_neg hneg,
        Option.some.injEq, ne_eq, reduceCtorEq, not_false_eq_true, true_and]
  | text16 =>
      rw [BufferKind.NegativeKept, ← hrefused]
      simp only [Handed.Whole, Handed.Refused, Handed.taken, text16Bytes_neg hneg,
        Option.some.injEq, ne_eq, reduceCtorEq, not_false_eq_true, true_and]

/-- When a narrowed length cuts nothing off. -/
theorem whole_iff : (Handed.mk kind bytes (cInt bytes.length)).Whole ↔ kind.NothingCut bytes := by
  rw [BufferKind.NothingCut]
  by_cases hshort : bytes.length < 2 ^ 31
  · exact iff_of_true (Or.inl (taken_short kind bytes hshort)) (Or.inl hshort)
  · rw [or_iff_right hshort]
    have hlong : 2 ^ 31 ≤ bytes.length := Nat.le_of_not_lt hshort
    rcases cInt_cases bytes.length with ⟨hlow, hlength⟩ | ⟨hhigh, hlength⟩
    · rw [hlength]
      exact iff_of_false (not_whole_of_low kind bytes hlong hlow) fun h => by omega
    · have hneg : cInt bytes.length < 0 := by omega
      rw [whole_negative_iff kind bytes hneg hlong]
      exact (and_iff_right hhigh).symm

theorem cInt_eq_iff (n : Nat) : cInt n = n ↔ n < 2 ^ 31 := by
  constructor
  · intro h
    rcases cInt_cases n with ⟨hlow, heq⟩ | ⟨hhigh, heq⟩ <;> omega
  · exact cInt_of_lt

theorem intact_iff :
    (Handed.mk kind bytes (cInt bytes.length)).Intact ↔ bytes.length < 2 ^ 31 := by
  constructor
  · intro h
    have hlength := h.length
    simp only [cInt_eq_iff] at hlength
    exact hlength
  · intro h
    constructor
    · rw [whole_iff]
      exact Or.inl h
    · simp only [cInt_of_lt h]

/-! ## Every call -/

theorem Entry.intact_eq (host : Host) (s : RString) (entry : Entry) :
    entry.Intact host s ↔ ∀ bytes, entry.buffer host s = .ok bytes →
      (Handed.mk (entry.kind s) bytes (cInt bytes.length)).Intact := by
  rw [Entry.Intact, handed_eq]
  cases entry.buffer host s with
  | ok bytes => simp
  | raise e => simp
  | jump tag => simp

/-- A string that is bound, returned from a function or prepared gets there with its length,
whole or refused, exactly when its buffer has fewer than `2 ^ 31` bytes; and from there on
something of it is lost exactly where a narrowed length cuts it off. -/
theorem lengths_intact_iff (host : Host) (s : RString) (entry : Entry) :
    (entry.Intact host s ↔
      ∀ bytes, entry.buffer host s = .ok bytes → bytes.length < 2 ^ 31) ∧
    ((∀ h, entry.handed host s = .ok (some h) → h.Whole) ↔
      ∀ bytes, entry.buffer host s = .ok bytes → (entry.kind s).NothingCut bytes) := by
  constructor
  · rw [Entry.intact_eq]
    exact forall₂_congr fun bytes _ => intact_iff _ bytes
  · rw [handed_eq]
    cases entry.buffer host s with
    | ok bytes => simpa using whole_iff (entry.kind s) bytes
    | raise e => simp
    | jump tag => simp

/-- A text of `2 ^ 32 + 1` bytes is bound as its first byte. -/
theorem longText_cut :
    ¬ Entry.bindParam.Intact littleHost ⟨.string, .utf8, List.replicate (2 ^ 32 + 1) 97⟩ := by
  rw [Entry.intact_eq]
  intro h
  have hlength := (h _ rfl).length
  simp only [List.length_replicate, cInt_eq_iff] at hlength
  omega

end Sqlite3Ruby
