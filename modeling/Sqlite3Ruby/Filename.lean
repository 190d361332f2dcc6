import Sqlite3Ruby.Opening

/-!
# The encoding of a filename

`Database.new(f.encode(e))` for the Unicode encodings `e`: which file SQLite is asked to
open, and when it is the one that `f` names in UTF-8.
-/

namespace Sqlite3Ruby.Opening

/-- UTF-8, UTF-16LE and UTF-16BE. -/
inductive UnicodeEncoding
  | utf8
  | utf16 (order : Utf16.ByteOrder)
  deriving DecidableEq

/-- `f.encode(e)`, for a valid `f`. -/
def encoded (f : List Char) : UnicodeEncoding → RString
  | .utf8 => ⟨.string, .utf8, Utf8.encode f⟩
  | .utf16 order => ⟨.string, .utf16 order, order.toBytes (Utf16.encode f)⟩

/-- The name of the file, in UTF-8, as SQLite reads it from the call. -/
def Request.file (native : Utf16.ByteOrder) : Request → Option (List UInt8)
  | .openV2 file _ _ => some file
  | .open16 file => (readUnits (native.ofBytes (text16Bytes file (-1)))).map Utf8.encode

/-- `Database.new(filename)` asks SQLite once, for the file of this name. -/
def Opens (host : Host) (sqlite : Sqlite) (filename : RString) (name : List UInt8) : Prop :=
  ∃ request,
    (databaseInitialize host sqlite (.name (.string filename false)) {} .nil {}).2.requests =
        [request] ∧ request.file host.byteOrder = some name

/-- SQLite reads the name in the encoding as it was meant. -/
def ReadsName (native : Utf16.ByteOrder) (f : List Char) : UnicodeEncoding → Prop
  | .utf8 => True
  | .utf16 order =>
      f.head? ≠ some '\uFEFF' ∧ f.head? ≠ some '\uFFFE' ∧
        (order = native ∨ (Utf16.encode f).map Utf16.swap = Utf16.encode f)

/-! ## What SQLite reads -/

theorem unitBytes_ne_zero (order : Utf16.ByteOrder) {u : UInt16} (h : u ≠ 0) :
    order.unitBytes u ≠ [0, 0] := by
  intro hzero
  have hread := Utf16.unit_unitBytes order u []
  rw [hzero] at hread
  cases order <;> exact h (List.cons.inj hread).1.symm

/-- The two bytes that were added end the text. -/
theorem text16Bytes_terminated (order : Utf16.ByteOrder) {units : List UInt16} (h : 0 ∉ units) :
    text16Bytes (order.toBytes units ++ [0, 0]) (-1) = order.toBytes units := by
  induction units with
  | nil => rfl
  | cons u units ih =>
      rw [List.mem_cons, not_or] at h
      have hrest := ih h.2
      have hunit := unitBytes_ne_zero order (Ne.symm h.1)
      obtain ⟨a, b, hbytes⟩ : ∃ a b, order.unitBytes u = [a, b] := by
        cases order <;> exact ⟨_, _, rfl⟩
      have hne : ¬ (a = 0 ∧ b = 0) := by
        rintro ⟨rfl, rfl⟩
        exact hunit hbytes
      have hcons : order.toBytes (u :: units) = a :: b :: order.toBytes units := by
        rw [Utf16.ByteOrder.toBytes, List.flatMap_cons, hbytes]
        rfl
      rw [hcons, List.cons_append, List.cons_append, text16Bytes, if_pos (by decide),
        if_neg hne, hrest]

/-- A text that starts with a byte-order mark loses it. -/
theorem readUnits_mark (native order : Utf16.ByteOrder) {cs : List Char}
    (hbom : cs.head? = some '\uFEFF') :
    readUnits (native.ofBytes (order.toBytes (Utf16.encode cs))) ≠ some cs := by
  have hmark : (Utf16.encode cs).head? = some 0xFEFF :=
    (Utf16.head?_encode_eq_iff (d := '\uFEFF') (by decide) cs).mpr hbom
  obtain ⟨units, hunits⟩ := List.head?_eq_some_iff.mp hmark
  obtain rfl | horder := eq_or_ne order native
  · rw [Utf16.ofBytes_toBytes, hunits]
    exact Utf16.decode_ne_of_shorter (by simp [hunits])
  · have hother : native = order.other := by
      cases order <;> cases native <;> simp_all [Utf16.ByteOrder.other]
    rw [hother, Utf16.ofBytes_other_toBytes, hunits]
    exact Utf16.decode_ne_of_shorter (by simp [hunits])

theorem readUnits_name_iff (native order : Utf16.ByteOrder) (f : List Char) :
    readUnits (native.ofBytes (order.toBytes (Utf16.encode f))) = some f ↔
      ReadsName native f (.utf16 order) := by
  by_cases hbom : f.head? = some '\uFEFF'
  · exact iff_of_false (readUnits_mark native order hbom) fun hreads => hreads.1 hbom
  · exact (readUnits_eq_some_iff native order hbom).trans (and_iff_right hbom).symm

/-! ## The call -/

/-- The call for a name without NUL. -/
def requestFor (f : List Char) : UnicodeEncoding → Request
  | .utf8 => .openV2 (Utf8.encode f) 6 none
  | .utf16 order => .open16 (order.toBytes (Utf16.encode f) ++ [0, 0])

theorem openRequest_encoded (host : Host) (e : UnicodeEncoding) {f : List Char} (hf : '\x00' ∉ f) :
    openRequest host (.name (.string (encoded f e) false)) {} .nil =
      .ok (requestFor f e, .create) := by
  cases e with
  | utf8 =>
      have htext : stringValueCStr (Utf8.encode f) = .ok (Utf8.encode f) :=
        if_neg (Utf8.zero_not_mem_encode hf)
      change (do
        let text ← stringValueCStr (Utf8.encode f)
        pure (.openV2 text 6 none, .create) : Outcome (Request × Mode)) = _
      rw [htext]
      rfl
  | utf16 order =>
      have hdecode : Utf16.decode (order.ofBytes (order.toBytes (Utf16.encode f))) = some f := by
        rw [Utf16.ofBytes_toBytes, Utf16.decode_encode]
      have htext : utf16StringValuePtr host (encoded f (.utf16 order)) false =
          .ok (order.toBytes (Utf16.encode f) ++ [0, 0]) := by
        have heven := Utf16.toBytes_length order (Utf16.encode f)
        simp [utf16StringValuePtr, encoded, RString.isBroken, hdecode, heven, hf]
      change (do
        let text ← utf16StringValuePtr host (encoded f (.utf16 order)) false
        pure (.open16 text, .create) : Outcome (Request × Mode)) = _
      rw [htext]
      rfl

theorem databaseInitialize_requests (sqlite : Sqlite) {host : Host} {file : File} {zvfs : Value}
    {request : Request} {mode : Mode} (h : openRequest host file {} zvfs = .ok (request, mode)) :
    (databaseInitialize host sqlite file {} zvfs {}).2.requests = [request] := by
  rw [← openFile_requests h, databaseInitialize]
  rcases hrun : openFile host sqlite file {} zvfs {} with ⟨o, st⟩
  cases o with
  | ok mode =>
      rw [RubyM.bind_run_ok mode _ hrun]
      cases mode.isReadonly <;> rfl
  | raise e => rw [RubyM.bind_run_raise _ hrun]
  | jump tag => rw [RubyM.bind_run_jump _ hrun]

theorem opens_encoded_iff (host : Host) (sqlite : Sqlite) (e : UnicodeEncoding) {f : List Char}
    (hf : '\x00' ∉ f) (name : List UInt8) :
    Opens host sqlite (encoded f e) name ↔ (requestFor f e).file host.byteOrder = some name := by
  rw [Opens, databaseInitialize_requests sqlite (openRequest_encoded host e hf)]
  simp

theorem requestFor_file_iff (native : Utf16.ByteOrder) (e : UnicodeEncoding) {f : List Char}
    (hf : '\x00' ∉ f) :
    (requestFor f e).file native = some (Utf8.encode f) ↔ ReadsName native f e := by
  cases e with
  | utf8 => exact iff_of_true rfl trivial
  | utf16 order =>
      have hunits := text16Bytes_terminated order (Utf16.zero_not_mem_encode hf)
      rw [← readUnits_name_iff, requestFor, Request.file, hunits]
      constructor
      · intro hname
        obtain ⟨cs, hcs, hencode⟩ := Option.map_eq_some_iff.mp hname
        rw [hcs, Utf8.encode_injective hencode]
      · intro hcs
        rw [hcs]
        rfl

/-- Both names are opened as the same file when the second is read as the first. -/
theorem opens_both_iff (host : Host) (sqlite : Sqlite) (e : UnicodeEncoding) {f : List Char}
    (hf : '\x00' ∉ f) :
    (∃ name, Opens host sqlite (encoded f .utf8) name ∧ Opens host sqlite (encoded f e) name) ↔
      (requestFor f e).file host.byteOrder = some (Utf8.encode f) := by
  constructor
  · rintro ⟨name, hutf8, hopens⟩
    obtain rfl := Option.some.inj ((opens_encoded_iff host sqlite .utf8 hf name).mp hutf8)
    exact (opens_encoded_iff host sqlite e hf _).mp hopens
  · intro hname
    exact ⟨_, (opens_encoded_iff host sqlite .utf8 hf _).mpr rfl,
      (opens_encoded_iff host sqlite e hf _).mpr hname⟩

/-- The encoding of the filename does not matter exactly when the name is in UTF-8, or in
the byte order of the host or one in which it looks the same, and starts with no mark. -/
theorem encoded_opens_iff (host : Host) (sqlite : Sqlite) (e : UnicodeEncoding) {f : List Char}
    (hf : '\x00' ∉ f) :
    (∃ name, Opens host sqlite (encoded f .utf8) name ∧ Opens host sqlite (encoded f e) name) ↔
      ReadsName host.byteOrder f e := by
  rw [opens_both_iff host sqlite e hf]
  exact requestFor_file_iff host.byteOrder e hf

/-- The name "a" in UTF-16LE, on a little-endian host. -/
theorem nativeName_opens :
    ∃ name, Opens littleHost withoutExtensions (encoded ['a'] .utf8) name ∧
      Opens littleHost withoutExtensions (encoded ['a'] (.utf16 .little)) name :=
  (encoded_opens_iff littleHost withoutExtensions (.utf16 .little) (by decide)).mpr
    ⟨by decide, by decide, .inl rfl⟩

/-- The same name in UTF-16BE. -/
theorem otherOrder_not_opened :
    ¬ ∃ name, Opens littleHost withoutExtensions (encoded ['a'] .utf8) name ∧
      Opens littleHost withoutExtensions (encoded ['a'] (.utf16 .big)) name := by
  rw [opens_both_iff _ _ _ (by decide), requestFor_file_iff _ _ (by decide)]
  rintro ⟨-, -, horder | hswap⟩
  · cases horder
  · exact absurd hswap (by decide)

end Sqlite3Ruby.Opening
