import Sqlite3Ruby.Binding

/-!
# The two encoders of strings

A string goes to SQLite through `bind_param` or as the result of a function. The first
encodes a text, unless it is UTF-16; the second hands over the bytes as they are.
-/

namespace Sqlite3Ruby

/-- What Ruby's table keeps to, where the encoding of the string has one: no byte takes more
than three bytes in UTF-8, and a NUL is written with a zero byte. -/
structure Transcodes (host : Host) (s : RString) : Prop where
  length_le : ∀ index cs, s.encoding = .other index → host.transcode index s.bytes = some cs →
    (Utf8.encode cs).length ≤ 3 * s.bytes.length
  zero : ∀ index cs, s.encoding = .other index → host.transcode index s.bytes = some cs →
    '\x00' ∈ cs → 0 ∈ s.bytes

/-- The string is a blob, or valid in its encoding. -/
def RString.IsValid (host : Host) (s : RString) : Prop :=
  s.isBlob = true ∨ ∃ cs, Spells host s cs

/-- The same storage class and content; texts are compared as characters. -/
def SqliteValue.Same : SqliteValue → SqliteValue → Prop
  | .text a, .text b => ∃ cs, a.1 = Utf8.encode cs ∧ b.1 = Utf8.encode cs
  | x, y => x = y

/-- A function that returns the string gives SQLite the value that `bind_param` gives it. -/
def EncodedSame (host : Host) (s : RString) : Prop :=
  ∃ call x y, setSqlite3FuncResult host.long (.string s) = .ok call ∧
    call.stored host.byteOrder = .value x ∧ bindParam host (.string s) = .ok (.value y) ∧ x.Same y

/-- The string is a blob, or its bytes are its characters in UTF-8. -/
def IsUtf8Already (host : Host) (s : RString) : Prop :=
  s.isBlob = true ∨ ∃ cs, Spells host s cs ∧ s.bytes = Utf8.encode cs

/-! ## The function result -/

variable {host : Host} {s : RString}

theorem setSqlite3FuncResult_blob (h : s.isBlob = true) :
    setSqlite3FuncResult host.long (.string s) = .ok (.blob s.bytes (cInt s.bytes.length)) := by
  rw [setSqlite3FuncResult, if_pos h]

theorem setSqlite3FuncResult_text (h : s.isBlob = false) :
    setSqlite3FuncResult host.long (.string s) = .ok (.text s.bytes (cInt s.bytes.length)) := by
  rw [setSqlite3FuncResult, if_neg (by simp [h])]

/-- For a text, the two values are the same when `bind_param` stores the bytes of the string
and these are UTF-8. -/
theorem encodedSame_text_iff (hblob : s.isBlob = false) (hlength : s.bytes.length < 2 ^ 31) :
    EncodedSame host s ↔
      (∃ cs, s.bytes = Utf8.encode cs) ∧
        bindParam host (.string s) = .ok (.value (.text ⟨s.bytes, hlength⟩)) := by
  constructor
  · rintro ⟨call, x, y, hcall, hx, hy, hsame⟩
    rw [setSqlite3FuncResult_text hblob] at hcall
    obtain rfl := Outcome.ok.inj hcall
    rw [stored_text _ hlength] at hx
    obtain rfl := Stored.value.inj hx
    cases y with
    | text b =>
        obtain ⟨cs, hs, hb⟩ := hsame
        obtain rfl : b = ⟨s.bytes, hlength⟩ := Subtype.ext (hb.trans hs.symm)
        exact ⟨⟨cs, hs⟩, hy⟩
    | null => cases hsame
    | integer n => cases hsame
    | float d => cases hsame
    | blob b => cases hsame
  · rintro ⟨⟨cs, hs⟩, hbind⟩
    exact ⟨_, _, _, setSqlite3FuncResult_text hblob, stored_text _ hlength, hbind, cs, hs, hs⟩

/-! ## UTF-16 -/

/-- The first byte of a byte-order mark, in either order, is in no UTF-8. -/
theorem no_mark_of_utf8 {order : Utf16.ByteOrder} {us : List UInt16} {ds : List Char}
    (h : order.toBytes us = Utf8.encode ds) :
    us.head? ≠ some 0xFEFF ∧ us.head? ≠ some 0xFFFE := by
  have hmark {u : UInt16} (hu : us.head? = some u) :
      ∀ b ∈ order.unitBytes u, b.toNat < 0xF8 := by
    obtain ⟨rest, rfl⟩ := List.head?_eq_some_iff.mp hu
    intro b hb
    have hmem : b ∈ Utf8.encode ds := by
      rw [← h, Utf16.ByteOrder.toBytes, List.flatMap_cons]
      exact List.mem_append_left _ hb
    exact Utf8.lt_of_mem_encode hmem
  constructor
  · intro hu
    cases order with
    | little => exact absurd (hmark hu 0xFF (by decide)) (by decide)
    | big => exact absurd (hmark hu 0xFF (by decide)) (by decide)
  · intro hu
    cases order with
    | little => exact absurd (hmark hu 0xFF (by decide)) (by decide)
    | big => exact absurd (hmark hu 0xFF (by decide)) (by decide)

/-- SQLite reads UTF-16 in its own byte order as its characters, but for a mark. -/
theorem readUnits_native {order : Utf16.ByteOrder} {cs : List Char}
    (h : (Utf16.encode cs).head? ≠ some 0xFEFF ∧ (Utf16.encode cs).head? ≠ some 0xFFFE) :
    readUnits (order.ofBytes (order.toBytes (Utf16.encode cs))) = some cs := by
  rw [Utf16.ofBytes_toBytes, readUnits_of_no_mark h.1 h.2, Utf16.decode_encode]

/-! ## What is bound -/

theorem bindParam_eq_value_iff {value : Value} {x : SqliteValue} :
    bindParam host value = .ok (.value x) ↔
      ∃ call, bindCall host value = .ok call ∧ call.stored host.byteOrder = .value x := by
  constructor
  · intro h
    obtain ⟨call, hcall, hstored, -⟩ := bindParam_eq_ok h
    exact ⟨call, hcall, hstored⟩
  · rintro ⟨call, hcall, hstored⟩
    exact bindParam_eq_value hcall hstored

theorem bindCall_utf16 {order : Utf16.ByteOrder} (hblob : s.isBlob = false)
    (henc : s.encoding = .utf16 order) :
    bindCall host (.string s) = .ok (.text16 s.bytes (cInt s.bytes.length)) := by
  simp [bindCall, hblob, henc]

theorem bindCall_text {cs : List Char} (hblob : s.isBlob = false)
    (henc : ∀ order, s.encoding ≠ .utf16 order) (hcs : Spells host s cs) :
    bindCall host (.string s) =
      .ok (.text (Utf8.encode cs) (cInt (Utf8.encode cs).length)) := by
  have hencode := strEncodeUtf8_of_spells hcs
  cases hother : s.encoding with
  | utf16 order => exact absurd hother (henc order)
  | utf8 => simp [bindCall, hblob, hother, hencode]
  | usAscii => simp [bindCall, hblob, hother, hencode]
  | ascii8bit => simp [bindCall, hblob, hother, hencode]
  | other index => simp [bindCall, hblob, hother, hencode]

theorem ofBytes_eq_value_iff {storage : Payload → SqliteValue}
    (hstorage : Function.Injective storage) {bytes : List UInt8} {payload : Payload} :
    Stored.ofBytes storage bytes = .value (storage payload) ↔ bytes = payload.1 := by
  constructor
  · intro h
    unfold Stored.ofBytes at h
    split at h
    · exact congrArg Subtype.val (hstorage (Stored.value.inj h))
    · cases h
  · rintro rfl
    exact ofBytes_of_lt storage payload.2

theorem text_injective : Function.Injective SqliteValue.text :=
  fun _ _ h => SqliteValue.text.inj h

/-- UTF-16 in the byte order of the host is bound as its own bytes exactly when these are its
characters in UTF-8. -/
theorem bind_utf16_iff {cs : List Char} (hblob : s.isBlob = false)
    (henc : s.encoding = .utf16 host.byteOrder) (hlength : s.bytes.length < 2 ^ 31)
    (hcs : Spells host s cs) {ds : List Char} (hutf8 : s.bytes = Utf8.encode ds) :
    bindParam host (.string s) = .ok (.value (.text ⟨s.bytes, hlength⟩)) ↔
      s.bytes = Utf8.encode cs := by
  have hbytes : s.bytes = host.byteOrder.toBytes (Utf16.encode cs) := by
    simpa only [Spells, henc] using hcs
  have hread : readUnits (host.byteOrder.ofBytes (host.byteOrder.toBytes (Utf16.encode cs))) =
      some cs := readUnits_native (no_mark_of_utf8 (hbytes.symm.trans hutf8))
  rw [← hbytes] at hread
  have hstored : (ValueCall.text16 s.bytes (cInt s.bytes.length)).stored host.byteOrder =
      .ofBytes .text (Utf8.encode cs) := by
    simp only [ValueCall.stored, text16Bytes_cInt hlength, hread]
  rw [bindParam_eq_value_iff, bindCall_utf16 hblob henc]
  simp only [Outcome.ok.injEq, exists_eq_left', hstored, ofBytes_eq_value_iff text_injective]
  exact eq_comm

/-- The text that is left of a transcoded string that is too long is never the string. -/
theorem transcoded_eq_of_stored (htable : Transcodes host s) {index : Nat} {cs : List Char}
    (henc : s.encoding = .other index) (hcs : host.transcode index s.bytes = some cs)
    (hlength : s.bytes.length < 2 ^ 31)
    (h : textBytes (Utf8.encode cs) (cInt (Utf8.encode cs).length) = s.bytes) :
    s.bytes = Utf8.encode cs := by
  by_cases hshort : (Utf8.encode cs).length < 2 ^ 31
  · rw [← h, textBytes_cInt hshort]
  · exfalso
    have hle := htable.length_le index cs henc hcs
    by_cases hneg : cInt (Utf8.encode cs).length < 0
    · -- Cut at the first NUL, the text has none, and so has the string.
      rw [textBytes, if_pos hneg] at h
      have hzero : '\x00' ∉ cs := by
        intro hmem
        have hbyte := htable.zero index cs henc hcs hmem
        rw [← h] at hbyte
        simpa using List.mem_takeWhile_imp hbyte
      have hwhole : (Utf8.encode cs).takeWhile (· ≠ 0) = Utf8.encode cs := by
        rw [List.takeWhile_eq_self_iff]
        intro b hb
        have hne : b ≠ 0 := by
          rintro rfl
          exact Utf8.zero_not_mem_encode hzero hb
        simpa using hne
      apply hshort
      rw [← hwhole, h]
      exact hlength
    · -- Cut to the length without its multiples of `2 ^ 32`, it is too short.
      rw [textBytes, if_neg hneg] at h
      have htake := congrArg List.length h
      rw [List.length_take] at htake
      rcases cInt_cases (Utf8.encode cs).length with ⟨-, heq⟩ | ⟨-, heq⟩
      · rw [heq] at htake
        omega
      · omega

theorem bind_text_iff (htable : Transcodes host s) {cs : List Char} (hblob : s.isBlob = false)
    (henc : ∀ order, s.encoding ≠ .utf16 order) (hlength : s.bytes.length < 2 ^ 31)
    (hcs : Spells host s cs) :
    bindParam host (.string s) = .ok (.value (.text ⟨s.bytes, hlength⟩)) ↔
      s.bytes = Utf8.encode cs := by
  rw [bindParam_eq_value_iff, bindCall_text hblob henc hcs]
  simp only [Outcome.ok.injEq, exists_eq_left', ValueCall.stored,
    ofBytes_eq_value_iff text_injective]
  constructor
  · intro h
    cases hother : s.encoding with
    | utf16 order => exact absurd hother (henc order)
    | ascii8bit => simp only [Spells, hother] at hcs
    | utf8 => simpa only [Spells, hother] using hcs
    | usAscii =>
        simp only [Spells, hother] at hcs
        exact hcs.1
    | other index =>
        simp only [Spells, hother] at hcs
        exact transcoded_eq_of_stored htable hother hcs hlength h
  · intro h
    rw [← h, textBytes_cInt hlength]

/-! ## The comparison -/

theorem encodedSame_blob (hblob : s.isBlob = true) (hlength : s.bytes.length < 2 ^ 31) :
    EncodedSame host s := by
  refine ⟨_, _, _, setSqlite3FuncResult_blob hblob, stored_blob _ hlength,
    bindParam_eq_value_iff.mpr ⟨_, ?_, stored_blob _ hlength⟩, rfl⟩
  simp [bindCall, hblob]

/-- A string is encoded in the same way as a result and as a parameter exactly when it is a
blob or its bytes are its characters in UTF-8. -/
theorem strings_encoded_same_iff (host : Host) (s : RString) (htable : Transcodes host s)
    (hlength : s.bytes.length < 2 ^ 31) (hvalid : s.IsValid host)
    (horder : ∀ order, s.encoding = .utf16 order → order = host.byteOrder) :
    EncodedSame host s ↔ IsUtf8Already host s := by
  cases hblob : s.isBlob with
  | true => exact iff_of_true (encodedSame_blob hblob hlength) (Or.inl hblob)
  | false =>
      obtain ⟨cs, hcs⟩ : ∃ cs, Spells host s cs := by simpa [RString.IsValid, hblob] using hvalid
      have halready : IsUtf8Already host s ↔ s.bytes = Utf8.encode cs := by
        constructor
        · rintro (h | ⟨ds, hds, h⟩)
          · simp [hblob] at h
          · rwa [hcs.unique hds]
        · exact fun h => Or.inr ⟨cs, hcs, h⟩
      rw [encodedSame_text_iff hblob hlength, halready]
      by_cases henc : s.encoding = .utf16 host.byteOrder
      · constructor
        · rintro ⟨⟨ds, hds⟩, hbind⟩
          exact (bind_utf16_iff hblob henc hlength hcs hds).mp hbind
        · intro h
          exact ⟨⟨cs, h⟩, (bind_utf16_iff hblob henc hlength hcs h).mpr h⟩
      · have hother (order : Utf16.ByteOrder) : s.encoding ≠ .utf16 order := by
          intro h
          exact henc (horder order h ▸ h)
        constructor
        · rintro ⟨-, hbind⟩
          exact (bind_text_iff htable hblob hother hlength hcs).mp hbind
        · intro h
          exact ⟨⟨cs, h⟩, (bind_text_iff htable hblob hother hlength hcs).mpr h⟩

theorem latin1_transcodes (s : RString) : Transcodes littleHost s where
  length_le index cs _ h := by
    obtain rfl : s.bytes.map (fun b => Char.ofNat b.toNat) = cs := Option.some.inj h
    generalize s.bytes = bytes
    induction bytes with
    | nil => simp [Utf8.encode]
    | cons b bytes ih =>
        have hone : (String.utf8EncodeChar (Char.ofNat b.toNat)).length ≤ 3 := by
          have hb : b.toNat < 256 := b.toNat_lt
          have hvalid : b.toNat.isValidChar := Or.inl (by omega)
          have hval : (Char.ofNat b.toNat).val.toNat = b.toNat := Utf16.char_ofNat_toNat hvalid
          rw [String.utf8EncodeChar, hval]
          split_ifs
          · simp
          · simp
          · simp
          · omega
        change (String.utf8EncodeChar (Char.ofNat b.toNat) ++
          Utf8.encode (bytes.map fun b => Char.ofNat b.toNat)).length ≤ _
        rw [List.length_append, List.length_cons]
        omega
  zero index cs _ h hzero := by
    obtain rfl : s.bytes.map (fun b => Char.ofNat b.toNat) = cs := Option.some.inj h
    obtain ⟨b, hb, hchar⟩ := List.mem_map.mp hzero
    have hvalid : b.toNat.isValidChar := Or.inl (by have := b.toNat_lt; omega)
    have hnat : b.toNat = 0 := by rw [← Utf16.char_ofNat_toNat hvalid, hchar]; rfl
    obtain rfl : b = 0 := UInt8.toNat_inj.mp hnat
    exact hb

/-- `abc` in ISO-8859-1. -/
theorem latin1Ascii_encodedSame :
    EncodedSame littleHost ⟨.string, .other 0, [0x61, 0x62, 0x63]⟩ := by
  refine (strings_encoded_same_iff littleHost _ (latin1_transcodes _) (by decide) ?_ (by simp)).mpr ?_
  · exact Or.inr ⟨['a', 'b', 'c'], rfl⟩
  · exact Or.inr ⟨['a', 'b', 'c'], rfl, rfl⟩

/-- An é in ISO-8859-1 is returned as a byte that is no UTF-8. -/
theorem latin1Accent_not_same :
    RString.IsValid littleHost ⟨.string, .other 0, [0xE9]⟩ ∧
      ¬ EncodedSame littleHost ⟨.string, .other 0, [0xE9]⟩ := by
  refine ⟨Or.inr ⟨['é'], rfl⟩, ?_⟩
  rw [encodedSame_text_iff rfl (by decide)]
  rintro ⟨-, hbind⟩
  exact absurd hbind (by decide)

end Sqlite3Ruby
