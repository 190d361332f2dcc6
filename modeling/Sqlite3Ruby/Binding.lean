import Sqlite3Ruby.Conversion

/-!
# Binding a value and reading it back

`bind_param` picks the call of SQLite from the type, the class and the encoding
of a value; `SELECT ?` gives the bound value back to the row decoder.

## Implementation notes

The characters of a string are a relation between the string and a list of
characters, so that a string has at most one reading and none if it is not
valid in its encoding. The encodings the extension does not tell apart are
read by a function of the host.
-/

namespace Sqlite3Ruby

/-- `String#dump` of a byte that is no ASCII. -/
def dumpByte (b : UInt8) : String :=
  "\"\\x" ++ String.ofList ((Nat.toDigits 16 b.toNat).map Char.toUpper) ++ "\""

/-- A conversion to UTF-8 that Ruby refuses. The two encodings of bytes name the first that
is no ASCII. -/
def conversionError {α : Type} (host : Host) (s : RString) : Outcome α :=
  match s.encoding, s.bytes.find? (128 ≤ ·) with
  | .usAscii, some b => .raise ⟨.InvalidByteSequenceError, dumpByte b ++ " on US-ASCII"⟩
  | .ascii8bit, some b =>
      .raise ⟨.UndefinedConversionError, dumpByte b ++ " from ASCII-8BIT to UTF-8"⟩
  | encoding, _ => .raise (host.conversionFailure encoding s.bytes).exception

theorem conversionError_ne_ok {α : Type} (host : Host) (s : RString) (a : α) :
    conversionError host s ≠ .ok a := by
  unfold conversionError
  split <;> simp

/-- `rb_str_encode` to UTF-8. A UTF-8 string is left alone, valid or not. -/
def strEncodeUtf8 (host : Host) (s : RString) : Outcome (List UInt8) :=
  match s.encoding with
  | .utf8 => .ok s.bytes
  | .usAscii | .ascii8bit =>
      if s.bytes.all (· < 128) then .ok s.bytes else conversionError host s
  | .utf16 order =>
      match Utf16.decode (order.ofBytes s.bytes) with
      | some cs => .ok (Utf8.encode cs)
      | none => conversionError host s
  | .other index =>
      match host.transcode index s.bytes with
      | some cs => .ok (Utf8.encode cs)
      | none => conversionError host s

/-- The switch of `bind_param` over the value: the call it makes. A string that
is neither a blob nor UTF-16 is always encoded, since none is UTF-8 and
US-ASCII at once. -/
def bindCall (host : Host) (value : Value) : Outcome ValueCall :=
  match value with
  | .string s =>
      if s.isBlob then .ok (.blob s.bytes (cInt s.bytes.length))
      else
        match s.encoding with
        | .utf16 _ => .ok (.text16 s.bytes (cInt s.bytes.length))
        | _ => do
            let bytes ← strEncodeUtf8 host s
            pure (.text bytes (cInt bytes.length))
  | .integer n =>
      if host.long.isFixnum n then .ok (.int64 (Int64.ofInt n))
      else
        match bignumToInt64 n with
        | some num64 => .ok (.int64 num64)
        | none => .ok (.double (num2dbl n))
  | .float d => .ok (.double d)
  | .nil => .ok .null
  | .true_ | .false_ | .object _ _ => .raise ⟨.RuntimeError, "can't prepare " ++ value.className⟩

/-- `SQLITE_OK` or `SQLITE_TOOBIG`. -/
def Stored.status : Stored → Nat
  | .tooBig => 18
  | _ => 0

/-- `bind_param` of a valid parameter. -/
def bindParam (host : Host) (value : Value) : Outcome Stored := do
  let call ← bindCall host value
  let stored := call.stored host.byteOrder
  check stored.status "string or blob too big"
  pure stored

/-- The column of the row that `SELECT ?` yields. -/
def selectColumn : Stored → Option Value
  | .value x => some (columnToRb x)
  | _ => none

/-! ## What should be read back -/

/-- The string is valid in its encoding and has these characters. -/
def Spells (host : Host) (s : RString) (cs : List Char) : Prop :=
  match s.encoding with
  | .utf8 => s.bytes = Utf8.encode cs
  | .usAscii => s.bytes = Utf8.encode cs ∧ s.bytes.all (· < 128)
  | .utf16 order => s.bytes = order.toBytes (Utf16.encode cs)
  | .other index => host.transcode index s.bytes = some cs
  | .ascii8bit => False

/-- The strings and floats that can be expected to come back: a text is valid
and does not start with a byte-order mark. -/
def Bindable (host : Host) : Value → Prop
  | .float d => d.isNaN = false
  | .string s => s.bytes.length < 2 ^ 31 ∧
      (s.isBlob = true ∨ ∃ cs, Spells host s cs ∧ cs.head? ≠ some '\uFEFF')
  | _ => True

/-- The canonical form of a value is `r`. -/
def Canonical (host : Host) (value r : Value) : Prop :=
  match value with
  | .nil => r = .nil
  | .integer n => if IsInt64 n then r = .integer n else ∃ d, r = .float d ∧ d.IsNearest n
  | .float d => r = .float d
  | .string s =>
      if s.isBlob then r = strNew s.bytes
      else ∃ cs, Spells host s cs ∧ r = utf8StrNew (Utf8.encode cs)
  | .true_ | .false_ | .object _ _ => False

/-- The texts that come back: UTF-16 in the byte order of the host, or the same
in both, that does not start with the reversed byte-order mark; and any other
encoding as long as SQLite can hold the UTF-8 form. -/
def ComesBack (host : Host) (value : Value) : Prop :=
  match value with
  | .string s =>
      s.isBlob = true ∨ ∀ cs, Spells host s cs →
        match s.encoding with
        | .utf16 order => cs.head? ≠ some '\uFFFE' ∧
            (order = host.byteOrder ∨ (Utf16.encode cs).map Utf16.swap = Utf16.encode cs)
        | _ => (Utf8.encode cs).length < 2 ^ 31
  | _ => True

/-- A string has one reading at most. -/
theorem Spells.unique {host : Host} {s : RString} {cs ds : List Char} (hc : Spells host s cs)
    (hd : Spells host s ds) : cs = ds := by
  rw [Spells] at hc hd
  cases henc : s.encoding with
  | utf8 =>
      simp only [henc] at hc hd
      exact Utf8.encode_injective (hc.symm.trans hd)
  | usAscii =>
      simp only [henc] at hc hd
      exact Utf8.encode_injective (hc.1.symm.trans hd.1)
  | utf16 order =>
      simp only [henc] at hc hd
      exact Utf16.encode_injective (Utf16.toBytes_injective order (hc.symm.trans hd))
  | other index =>
      simp only [henc] at hc hd
      exact Option.some.inj (hc.symm.trans hd)
  | ascii8bit => simp only [henc] at hc

/-- Outside of UTF-16, Ruby encodes a valid text as its characters. -/
theorem strEncodeUtf8_of_spells {host : Host} {s : RString} {cs : List Char}
    (h : Spells host s cs) : strEncodeUtf8 host s = .ok (Utf8.encode cs) := by
  rw [Spells] at h
  rw [strEncodeUtf8]
  cases henc : s.encoding with
  | utf8 =>
      simp only [henc] at h
      rw [h]
  | usAscii =>
      simp only [henc] at h
      rw [if_pos h.2, h.1]
  | utf16 order =>
      simp only [henc] at h
      simp only [h, Utf16.ofBytes_toBytes, Utf16.decode_encode]
  | other index =>
      simp only [henc] at h
      simp only [h]
  | ascii8bit => simp only [henc] at h

/-! ## UTF-16 -/

theorem text16Bytes_cInt {bytes : List UInt8} (h : bytes.length < 2 ^ 31) :
    text16Bytes bytes (cInt bytes.length) = bytes := by
  rw [cInt_of_lt h]
  match bytes with
  | [] => rfl
  | [a] => rfl
  | a :: b :: rest =>
      have hnonneg : ¬ ((a :: b :: rest).length : Int) < 0 := by omega
      rw [text16Bytes, if_neg hnonneg, Int.toNat_natCast, List.take_length]

/-- A reading that drops a code unit is not the text. -/
theorem decode_tail_ne {cs : List Char} {u : UInt16} {us : List UInt16}
    (h : Utf16.encode cs = u :: us) : Utf16.decode (us.map Utf16.swap) ≠ some cs :=
  Utf16.decode_ne_of_shorter (by simp [h])

theorem readUnits_of_no_mark {us : List UInt16} (hFEFF : us.head? ≠ some 0xFEFF)
    (hFFFE : us.head? ≠ some 0xFFFE) : readUnits us = Utf16.decode us := by
  unfold readUnits
  split
  · exact absurd rfl hFEFF
  · exact absurd rfl hFFFE
  · rfl

theorem head?_map_swap_ne {us : List UInt16} {u : UInt16} (h : us.head? ≠ some (Utf16.swap u)) :
    (us.map Utf16.swap).head? ≠ some u := by
  rw [List.head?_map]
  intro hswap
  obtain ⟨v, hv, rfl⟩ := Option.map_eq_some_iff.mp hswap
  rw [Utf16.swap_swap] at h
  exact h hv

/-- Which texts SQLite reads as they were meant. -/
theorem readUnits_eq_some_iff (native order : Utf16.ByteOrder) {cs : List Char}
    (hbom : cs.head? ≠ some '\uFEFF') :
    readUnits (native.ofBytes (order.toBytes (Utf16.encode cs))) = some cs ↔
      cs.head? ≠ some '\uFFFE' ∧
        (order = native ∨ (Utf16.encode cs).map Utf16.swap = Utf16.encode cs) := by
  have hFEFF : (Utf16.encode cs).head? ≠ some 0xFEFF :=
    (Utf16.head?_encode_eq_iff (d := '\uFEFF') (by decide) cs).not.mpr hbom
  have hFFFE : (Utf16.encode cs).head? = some 0xFFFE ↔ cs.head? = some '\uFFFE' :=
    Utf16.head?_encode_eq_iff (d := '\uFFFE') (by decide) cs
  obtain rfl | horder := eq_or_ne order native
  · rw [Utf16.ofBytes_toBytes]
    by_cases hmark : (Utf16.encode cs).head? = some 0xFFFE
    · obtain ⟨us, hus⟩ := List.head?_eq_some_iff.mp hmark
      refine iff_of_false ?_ (fun h => h.1 (hFFFE.mp hmark))
      rw [hus]
      exact decode_tail_ne hus
    · refine iff_of_true ?_ ⟨fun h => hmark (hFFFE.mpr h), Or.inl rfl⟩
      rw [readUnits_of_no_mark hFEFF hmark, Utf16.decode_encode]
  · have hother : native = order.other := by
      cases order <;> cases native <;> simp_all [Utf16.ByteOrder.other]
    rw [hother, Utf16.ofBytes_other_toBytes]
    by_cases hmark : (Utf16.encode cs).head? = some 0xFFFE
    · obtain ⟨us, hus⟩ := List.head?_eq_some_iff.mp hmark
      refine iff_of_false ?_ (fun h => h.1 (hFFFE.mp hmark))
      rw [hus]
      exact decode_tail_ne hus
    · have hread : readUnits ((Utf16.encode cs).map Utf16.swap) =
          Utf16.decode ((Utf16.encode cs).map Utf16.swap) :=
        readUnits_of_no_mark (head?_map_swap_ne hmark) (head?_map_swap_ne hFEFF)
      rw [hread, Utf16.decode_swap_iff]
      have hne : order ≠ order.other := fun h => horder (h.trans hother.symm)
      simp [hne, hFFFE.not.mp hmark]

/-! ## The round trip -/

/-- `bind_param` hands over what its call stores, unless SQLite refuses it. -/
theorem bindParam_eq_ok {host : Host} {value : Value} {s : Stored}
    (h : bindParam host value = .ok s) :
    ∃ call, bindCall host value = .ok call ∧ call.stored host.byteOrder = s ∧ s ≠ .tooBig := by
  rw [bindParam] at h
  cases hcall : bindCall host value with
  | raise e => simp [hcall] at h
  | jump tag => simp [hcall] at h
  | ok call =>
      simp only [hcall, Outcome.ok_bind] at h
      cases hstored : call.stored host.byteOrder with
      | tooBig => simp [hstored, Stored.status, check, status2klass] at h
      | value x =>
          simp only [hstored, Stored.status, check, status2klass] at h
          exact ⟨call, rfl, hstored.trans (Outcome.ok.inj h), by rw [← Outcome.ok.inj h]; simp⟩
      | unspecified =>
          simp only [hstored, Stored.status, check, status2klass] at h
          exact ⟨call, rfl, hstored.trans (Outcome.ok.inj h), by rw [← Outcome.ok.inj h]; simp⟩

theorem bindParam_eq_value {host : Host} {value : Value} {call : ValueCall} {x : SqliteValue}
    (hcall : bindCall host value = .ok call) (hstored : call.stored host.byteOrder = .value x) :
    bindParam host value = .ok (.value x) := by
  simp [bindParam, hcall, hstored, Stored.status, check, status2klass]

theorem canonical_text_iff {host : Host} {s : RString} {cs : List Char} {r : Value}
    (hblob : s.isBlob = false) (hcs : Spells host s cs) :
    Canonical host (.string s) r ↔ r = utf8StrNew (Utf8.encode cs) := by
  simp only [Canonical, hblob, Bool.false_eq_true, if_false]
  constructor
  · rintro ⟨ds, hds, rfl⟩
    rw [hds.unique hcs]
  · rintro rfl
    exact ⟨cs, hcs, rfl⟩

theorem utf8StrNew_inj {a b : List UInt8} : utf8StrNew a = utf8StrNew b ↔ a = b := by
  simp [utf8StrNew]

/-- A stored text comes back as the bytes SQLite took. -/
theorem selectColumn_text_iff {bytes wanted : List UInt8}
    (h : Stored.ofBytes .text bytes ≠ .tooBig) :
    selectColumn (.ofBytes .text bytes) = some (utf8StrNew wanted) ↔ bytes = wanted := by
  by_cases hlt : bytes.length < 2 ^ 31
  · rw [ofBytes_of_lt _ hlt, selectColumn, columnToRb, Option.some.injEq, utf8StrNew_inj]
  · exact absurd (dif_neg hlt) h

/-- The text SQLite takes is the whole buffer exactly when its length is a C `int`. -/
theorem textBytes_cInt_iff {bytes : List UInt8}
    (h : Stored.ofBytes .text (textBytes bytes (cInt bytes.length)) ≠ .tooBig) :
    textBytes bytes (cInt bytes.length) = bytes ↔ bytes.length < 2 ^ 31 := by
  constructor
  · intro heq
    rw [heq] at h
    by_contra hlong
    exact h (dif_neg hlong)
  · exact textBytes_cInt

theorem string_comesBack_iff {host : Host} {s : RString} {stored : Stored} {cs : List Char}
    (hblob : s.isBlob = false) (hlength : s.bytes.length < 2 ^ 31) (hcs : Spells host s cs)
    (hbom : cs.head? ≠ some '\uFEFF') (hbind : bindParam host (.string s) = .ok stored) :
    selectColumn stored = some (utf8StrNew (Utf8.encode cs)) ↔ ComesBack host (.string s) := by
  obtain ⟨call, hcall, hstored, hbig⟩ := bindParam_eq_ok hbind
  subst hstored
  simp only [bindCall, hblob, Bool.false_eq_true, if_false] at hcall
  have hcond : ComesBack host (.string s) ↔
      match s.encoding with
      | .utf16 order => cs.head? ≠ some '\uFFFE' ∧
          (order = host.byteOrder ∨ (Utf16.encode cs).map Utf16.swap = Utf16.encode cs)
      | _ => (Utf8.encode cs).length < 2 ^ 31 := by
    simp only [ComesBack, hblob, Bool.false_eq_true, false_or]
    constructor
    · exact fun h => h cs hcs
    · intro h ds hds
      rwa [hds.unique hcs]
  rw [hcond]
  split at hcall
  · rename_i order henc
    obtain rfl := Outcome.ok.inj hcall
    have hbytes : s.bytes = order.toBytes (Utf16.encode cs) := by
      simpa only [Spells, henc] using hcs
    simp only [ValueCall.stored, text16Bytes_cInt hlength] at hbig ⊢
    rw [hbytes] at hbig ⊢
    rw [← readUnits_eq_some_iff host.byteOrder order hbom]
    cases hread : readUnits (host.byteOrder.ofBytes (order.toBytes (Utf16.encode cs))) with
    | none => simp [selectColumn]
    | some ds =>
        simp only [hread] at hbig
        rw [selectColumn_text_iff hbig, Option.some.injEq]
        exact Utf8.encode_injective.eq_iff
  · rename_i hother
    rw [strEncodeUtf8_of_spells hcs] at hcall
    obtain rfl := Outcome.ok.inj hcall
    rw [ValueCall.stored] at hbig ⊢
    rw [selectColumn_text_iff hbig, textBytes_cInt_iff hbig]

theorem isInt64_of_isFixnum {long : SizeofLong} {n : Int} (h : long.isFixnum n = true) :
    IsInt64 n := by
  simp only [SizeofLong.isFixnum, Bool.and_eq_true, decide_eq_true_eq] at h
  have hend : long.fixnumEnd ≤ 2 ^ 62 := by
    cases long <;> decide
  rw [IsInt64]
  omega

/-- Fixnums and the Bignums of 64 bits are bound as integers, the others as doubles. -/
theorem bindCall_integer (host : Host) (n : Int) :
    bindCall host (.integer n) =
      if IsInt64 n then .ok (.int64 (Int64.ofInt n)) else .ok (.double (num2dbl n)) := by
  simp only [bindCall]
  split
  · rename_i hfix
    rw [if_pos (isInt64_of_isFixnum hfix)]
  · rw [bignumToInt64_eq]
    by_cases h : IsInt64 n <;> simp [h]

/-- The canonical form of a value comes out of what its call stores. -/
def ReadsBack (host : Host) (value : Value) (call : ValueCall) : Prop :=
  ∃ r, selectColumn (call.stored host.byteOrder) = some r ∧ Canonical host value r

theorem float_readsBack (host : Host) {d : Binary64} (hd : d.isNaN = false) :
    ReadsBack host (.float d) (.double d) := by
  have hdouble : SqliteValue.ofDouble d = .float ⟨d, hd⟩ := ofDouble_val ⟨d, hd⟩
  refine ⟨.float d, ?_, rfl⟩
  rw [ValueCall.stored, hdouble]
  rfl

theorem integer_readsBack {host : Host} {n : Int} {call : ValueCall}
    (hcall : bindCall host (.integer n) = .ok call) : ReadsBack host (.integer n) call := by
  rw [bindCall_integer] at hcall
  by_cases h : IsInt64 n
  · rw [if_pos h] at hcall
    obtain rfl := Outcome.ok.inj hcall
    refine ⟨.integer n, ?_, by simp [Canonical, h]⟩
    rw [ValueCall.stored, selectColumn, columnToRb, toInt_ofInt h]
  · rw [if_neg h] at hcall
    obtain rfl := Outcome.ok.inj hcall
    have hreal : SqliteValue.ofDouble (num2dbl n) =
        .float ⟨num2dbl n, Binary64.ofInt_not_isNaN n⟩ := ofDouble_val ⟨_, _⟩
    refine ⟨.float (num2dbl n), ?_, ?_⟩
    · rw [ValueCall.stored, hreal]
      rfl
    · simp only [Canonical, if_neg h]
      exact ⟨_, rfl, Binary64.ofInt_isNearest n⟩

theorem blob_readsBack {host : Host} {s : RString} {call : ValueCall} (hblob : s.isBlob = true)
    (hlength : s.bytes.length < 2 ^ 31) (hcall : bindCall host (.string s) = .ok call) :
    ReadsBack host (.string s) call := by
  simp only [bindCall, hblob, if_true] at hcall
  obtain rfl := Outcome.ok.inj hcall
  refine ⟨strNew s.bytes, ?_, by simp [Canonical, hblob]⟩
  rw [stored_blob _ hlength]
  rfl

/-- An accepted value is read back in its canonical form exactly when it is no
text that SQLite is made to read in the wrong byte order, to strip of its first
character or to cut. -/
theorem bind_round_trip_iff (host : Host) (value : Value) (stored : Stored)
    (hvalue : Bindable host value) (hbind : bindParam host value = .ok stored) :
    (∃ r, selectColumn stored = some r ∧ Canonical host value r) ↔ ComesBack host value := by
  obtain ⟨call, hcall, rfl, hbig⟩ := bindParam_eq_ok hbind
  cases value with
  | true_ => cases hcall
  | false_ => cases hcall
  | object klass toInt => cases hcall
  | nil =>
      obtain rfl := Outcome.ok.inj hcall
      exact iff_of_true ⟨.nil, rfl, rfl⟩ trivial
  | float d =>
      obtain rfl := Outcome.ok.inj hcall
      exact iff_of_true (float_readsBack host hvalue) trivial
  | integer n => exact iff_of_true (integer_readsBack hcall) trivial
  | string s =>
      have hlength := hvalue.1
      cases hblob : s.isBlob with
      | true => exact iff_of_true (blob_readsBack hblob hlength hcall) (Or.inl hblob)
      | false =>
          obtain hisBlob | ⟨cs, hcs, hbom⟩ := hvalue.2
          · cases hisBlob.symm.trans hblob
          · rw [← string_comesBack_iff hblob hlength hcs hbom hbind]
            simp only [canonical_text_iff hblob hcs, exists_eq_right]

/-- A little-endian host whose one other encoding is ISO-8859-1. -/
def littleHost : Host where
  long := .eight
  byteOrder := .little
  transcode _ bytes := some (bytes.map fun b => Char.ofNat b.toNat)
  characters _ bytes := some (bytes.map fun b => (b.toNat, [b]))
  isDummy _ := false
  conversionFailure encoding _ := .undefinedConversion ("from " ++ encoding.name ++ " to UTF-8")

/-- An é in ISO-8859-1 is read back as an é. -/
theorem latin1_comesBack :
    ∃ r, selectColumn (.value (.text ⟨[0xC3, 0xA9], by decide⟩)) = some r ∧
      Canonical littleHost (.string ⟨.string, .other 0, [0xE9]⟩) r := by
  have hbind : bindParam littleHost (.string ⟨.string, .other 0, [0xE9]⟩) = _ :=
    @bindParam_eq_value _ _ (.text [0xC3, 0xA9] (cInt 2)) _ rfl (stored_text .little (by decide))
  refine (bind_round_trip_iff littleHost _ _ ?_ hbind).mpr ?_
  · exact ⟨by decide, Or.inr ⟨['é'], rfl, by decide⟩⟩
  · apply Or.inr
    intro cs hcs
    obtain rfl : cs = ['é'] := hcs.unique rfl
    decide

/-- An A in UTF-16BE is read back as U+4100 on a little-endian host. -/
theorem bigEndian_is_misread :
    ∃ stored, Bindable littleHost (.string ⟨.string, .utf16 .big, [0x00, 0x41]⟩) ∧
      bindParam littleHost (.string ⟨.string, .utf16 .big, [0x00, 0x41]⟩) = .ok stored ∧
      ¬ ∃ r, selectColumn stored = some r ∧
        Canonical littleHost (.string ⟨.string, .utf16 .big, [0x00, 0x41]⟩) r := by
  have hspells : Spells littleHost ⟨.string, .utf16 .big, [0x00, 0x41]⟩ ['A'] := rfl
  have hunits : readUnits [0x4100] = some ['\u4100'] := readUnits_of_no_mark (by decide) (by decide)
  have hstored : (ValueCall.text16 [0x00, 0x41] 2).stored .little =
      .value (.text ⟨[0xE4, 0x84, 0x80], by decide⟩) := by
    change (match readUnits [0x4100] with
      | some cs => Stored.ofBytes .text (Utf8.encode cs)
      | none => .unspecified) = _
    rw [hunits]
    rfl
  refine ⟨_, ?_, bindParam_eq_value rfl hstored, ?_⟩
  · exact ⟨by decide, Or.inr ⟨['A'], hspells, by decide⟩⟩
  · rintro ⟨r, hr, hcanonical⟩
    obtain rfl := Option.some.inj hr
    have hutf8 := (canonical_text_iff (by decide) hspells).mp hcanonical
    exact absurd hutf8 (by decide)

end Sqlite3Ruby
