import Mathlib.Data.List.Basic

/-!
# UTF-16 and UTF-8

Characters are the Unicode scalar values. UTF-16 is a list of code units, and
its bytes depend on a byte order. Decoding is the exact inverse of encoding, so
a code unit list has one reading at most, and bytes read in the other order
give the same characters only if every unit reads the same both ways.
-/

namespace Utf16

inductive ByteOrder
  | little
  | big
  deriving DecidableEq

def ByteOrder.other : ByteOrder → ByteOrder
  | .little => .big
  | .big => .little

/-- The code units of one character. -/
def encodeChar (c : Char) : List UInt16 :=
  if c.toNat < 0x10000 then [UInt16.ofNat c.toNat]
  else
    [UInt16.ofNat (0xD800 + (c.toNat - 0x10000) / 1024),
      UInt16.ofNat (0xDC00 + (c.toNat - 0x10000) % 1024)]

def encode (cs : List Char) : List UInt16 := cs.flatMap encodeChar

def isHigh (u : UInt16) : Bool := 0xD800 ≤ u.toNat && u.toNat < 0xDC00

def isLow (u : UInt16) : Bool := 0xDC00 ≤ u.toNat && u.toNat < 0xE000

/-- The character of a surrogate pair. -/
def pairChar (u v : UInt16) : Char :=
  Char.ofNat (0x10000 + (u.toNat - 0xD800) * 1024 + (v.toNat - 0xDC00))

/-- The characters of a list of code units, unless a surrogate stands alone. -/
def decode : List UInt16 → Option (List Char)
  | [] => some []
  | u :: us =>
      if isHigh u then
        match us with
        | [] => none
        | v :: vs => if isLow v then (decode vs).map (pairChar u v :: ·) else none
      else if isLow u then none
      else (decode us).map (Char.ofNat u.toNat :: ·)

/-- The code unit with its two bytes exchanged. -/
def swap (u : UInt16) : UInt16 := UInt16.ofNat (u.toNat % 256 * 256 + u.toNat / 256)

def ByteOrder.unitBytes (order : ByteOrder) (u : UInt16) : List UInt8 :=
  match order with
  | .little => [UInt8.ofNat u.toNat, UInt8.ofNat (u.toNat / 256)]
  | .big => [UInt8.ofNat (u.toNat / 256), UInt8.ofNat u.toNat]

def ByteOrder.toBytes (order : ByteOrder) (us : List UInt16) : List UInt8 :=
  us.flatMap order.unitBytes

def ByteOrder.unit (order : ByteOrder) (a b : UInt8) : UInt16 :=
  match order with
  | .little => UInt16.ofNat (b.toNat * 256 + a.toNat)
  | .big => UInt16.ofNat (a.toNat * 256 + b.toNat)

/-- The code units of a string of bytes. A last odd byte is left out. -/
def ByteOrder.ofBytes (order : ByteOrder) : List UInt8 → List UInt16
  | a :: b :: bytes => order.unit a b :: order.ofBytes bytes
  | _ => []

/-! ## Characters -/

theorem char_toNat_valid (c : Char) : c.toNat < 0xD800 ∨ (0xDFFF < c.toNat ∧ c.toNat < 0x110000) :=
  c.valid

theorem char_ofNat_toNat {n : Nat} (h : n.isValidChar) : (Char.ofNat n).toNat = n := by
  rw [Char.ofNat, dif_pos h]
  rfl

theorem unit_toNat_lt (u : UInt16) : u.toNat < 65536 := u.toNat_lt

theorem toNat_ofNat {n : Nat} (hn : n < 65536) : (UInt16.ofNat n).toNat = n :=
  UInt16.toNat_ofNat_of_lt' hn

/-- A code unit which is no surrogate is a character. -/
theorem decode_unit {u : UInt16} (hhigh : isHigh u = false) (hlow : isLow u = false)
    (us : List UInt16) : decode (u :: us) = (decode us).map (Char.ofNat u.toNat :: ·) := by
  cases us <;> simp [decode, hhigh, hlow]

/-- A surrogate pair is a character. -/
theorem decode_pair {u v : UInt16} (hhigh : isHigh u = true) (hlow : isLow v = true)
    (us : List UInt16) : decode (u :: v :: us) = (decode us).map (pairChar u v :: ·) := by
  simp [decode, hhigh, hlow]

/-- The first character of an encoding is read back. -/
theorem decode_encodeChar_append (c : Char) (us : List UInt16) :
    decode (encodeChar c ++ us) = (decode us).map (c :: ·) := by
  have hvalid := char_toNat_valid c
  rw [encodeChar]
  split
  · rename_i hbmp
    have hnat := toNat_ofNat hbmp
    have hhigh : isHigh (UInt16.ofNat c.toNat) = false := by
      simp only [isHigh, hnat, Bool.and_eq_false_iff, decide_eq_false_iff_not]
      omega
    have hlow : isLow (UInt16.ofNat c.toNat) = false := by
      simp only [isLow, hnat, Bool.and_eq_false_iff, decide_eq_false_iff_not]
      omega
    rw [List.singleton_append, decode_unit hhigh hlow, hnat, Char.ofNat_toNat]
  · rename_i hbmp
    have hnatHigh : (UInt16.ofNat (0xD800 + (c.toNat - 0x10000) / 1024)).toNat =
        0xD800 + (c.toNat - 0x10000) / 1024 := toNat_ofNat (by omega)
    have hnatLow : (UInt16.ofNat (0xDC00 + (c.toNat - 0x10000) % 1024)).toNat =
        0xDC00 + (c.toNat - 0x10000) % 1024 := toNat_ofNat (by omega)
    have hhigh : isHigh (UInt16.ofNat (0xD800 + (c.toNat - 0x10000) / 1024)) = true := by
      simp only [isHigh, hnatHigh, Bool.and_eq_true, decide_eq_true_eq]
      omega
    have hlow : isLow (UInt16.ofNat (0xDC00 + (c.toNat - 0x10000) % 1024)) = true := by
      simp only [isLow, hnatLow, Bool.and_eq_true, decide_eq_true_eq]
      omega
    have hpair : 0x10000 + (0xD800 + (c.toNat - 0x10000) / 1024 - 0xD800) * 1024 +
        (0xDC00 + (c.toNat - 0x10000) % 1024 - 0xDC00) = c.toNat := by omega
    rw [List.cons_append, List.singleton_append, decode_pair hhigh hlow, pairChar, hnatHigh,
      hnatLow, hpair, Char.ofNat_toNat]

/-- Every string is read back from its code units. -/
theorem decode_encode (cs : List Char) : decode (encode cs) = some cs := by
  induction cs with
  | nil => rfl
  | cons c cs ih =>
      change decode (encodeChar c ++ encode cs) = _
      rw [decode_encodeChar_append, ih]
      rfl

theorem encode_injective : Function.Injective encode := by
  intro cs ds h
  have hdecode := congrArg decode h
  rw [decode_encode, decode_encode] at hdecode
  exact Option.some.inj hdecode

/-- A character of one code unit starts a string exactly when its unit does. -/
theorem head?_encode_eq_iff {d : Char} (hd : d.toNat < 0x10000) (cs : List Char) :
    (encode cs).head? = some (UInt16.ofNat d.toNat) ↔ cs.head? = some d := by
  cases cs with
  | nil => simp [encode]
  | cons c cs =>
      have hvalid := char_toNat_valid d
      have hvalid' := char_toNat_valid c
      have hnat := toNat_ofNat hd
      change (encodeChar c ++ encode cs).head? = _ ↔ _
      rw [List.head?_cons, Option.some.injEq]
      rw [encodeChar]
      split
      · rename_i hc
        rw [List.singleton_append, List.head?_cons, Option.some.injEq, ← UInt16.toNat_inj,
          toNat_ofNat hc, hnat, Char.toNat_inj]
      · rename_i hc
        rw [List.cons_append, List.head?_cons, Option.some.injEq, ← UInt16.toNat_inj,
          toNat_ofNat (by omega), hnat, ← Char.toNat_inj]
        omega

theorem encodeChar_unit {u : UInt16} (hhigh : isHigh u = false) (hlow : isLow u = false) :
    encodeChar (Char.ofNat u.toNat) = [u] := by
  have hlt := unit_toNat_lt u
  simp only [isHigh, isLow, Bool.and_eq_false_iff, decide_eq_false_iff_not] at hhigh hlow
  have hvalid : u.toNat.isValidChar := by
    rw [Nat.isValidChar]
    omega
  simp [encodeChar, char_ofNat_toNat hvalid, hlt]

theorem encodeChar_pair {u v : UInt16} (hu : isHigh u = true) (hv : isLow v = true) :
    encodeChar (pairChar u v) = [u, v] := by
  simp only [isHigh, isLow, Bool.and_eq_true, decide_eq_true_eq] at hu hv
  have hvalid : Nat.isValidChar (0x10000 + (u.toNat - 0xD800) * 1024 + (v.toNat - 0xDC00)) := by
    rw [Nat.isValidChar]
    omega
  have hhigh : 0xD800 + (0x10000 + (u.toNat - 0xD800) * 1024 + (v.toNat - 0xDC00) - 0x10000) / 1024 =
      u.toNat := by omega
  have hlow : 0xDC00 + (0x10000 + (u.toNat - 0xD800) * 1024 + (v.toNat - 0xDC00) - 0x10000) % 1024 =
      v.toNat := by omega
  rw [encodeChar, pairChar, char_ofNat_toNat hvalid, if_neg (by omega), hhigh, hlow]
  simp

/-- What is read is what was encoded. -/
theorem encode_decode {us : List UInt16} {cs : List Char} (h : decode us = some cs) :
    encode cs = us := by
  induction us using decode.induct generalizing cs with
  | case1 =>
      obtain rfl : [] = cs := by simpa [decode] using h
      rfl
  | case2 u hhigh => simp [decode, hhigh] at h
  | case3 u hhigh v vs hlow ih =>
      rw [decode_pair hhigh hlow, Option.map_eq_some_iff] at h
      obtain ⟨ds, hds, rfl⟩ := h
      change encodeChar (pairChar u v) ++ encode ds = _
      rw [encodeChar_pair hhigh hlow, ih hds]
      rfl
  | case4 u hhigh v vs hlow => simp [decode, hhigh, hlow] at h
  | case5 u us hhigh hlow => cases us <;> simp [decode, hhigh, hlow] at h
  | case6 u us hhigh hlow ih =>
      have hhigh' : isHigh u = false := by simpa using hhigh
      have hlow' : isLow u = false := by simpa using hlow
      rw [decode_unit hhigh' hlow', Option.map_eq_some_iff] at h
      obtain ⟨ds, hds, rfl⟩ := h
      change encodeChar (Char.ofNat u.toNat) ++ encode ds = _
      rw [encodeChar_unit hhigh' hlow', ih hds]
      rfl

/-- Fewer code units are another text. -/
theorem decode_ne_of_shorter {us : List UInt16} {cs : List Char}
    (h : us.length < (encode cs).length) : decode us ≠ some cs := by
  intro hread
  rw [encode_decode hread] at h
  exact Nat.lt_irrefl _ h

theorem zero_not_mem_encode {cs : List Char} (h : '\x00' ∉ cs) : 0 ∉ encode cs := by
  intro hmem
  obtain ⟨c, hc, hzero⟩ := List.mem_flatMap.mp hmem
  have hvalid := char_toNat_valid c
  rw [encodeChar] at hzero
  split at hzero
  · rename_i hbmp
    have hnat := congrArg UInt16.toNat (List.mem_singleton.mp hzero)
    rw [toNat_ofNat hbmp] at hnat
    obtain rfl : c = '\x00' := Char.toNat_inj.mp hnat.symm
    exact h hc
  · rename_i hbmp
    have hne {n : Nat} (hlow : 0 < n) (hhigh : n < 65536) : 0 ≠ UInt16.ofNat n := by
      intro heq
      have hnat := congrArg UInt16.toNat heq
      rw [toNat_ofNat hhigh] at hnat
      exact Nat.ne_of_lt hlow hnat
    rcases List.mem_cons.mp hzero with heq | hlast
    · exact hne (by omega) (by omega) heq
    · exact hne (by omega) (by omega) (List.mem_singleton.mp hlast)

/-! ## Bytes -/

theorem swap_toNat (u : UInt16) : (swap u).toNat = u.toNat % 256 * 256 + u.toNat / 256 := by
  have hlt := unit_toNat_lt u
  exact toNat_ofNat (by omega)

theorem swap_swap (u : UInt16) : swap (swap u) = u := by
  have hlt := unit_toNat_lt u
  rw [← UInt16.toNat_inj, swap_toNat, swap_toNat]
  omega

theorem unit_ext {u v : UInt16} (h : u.toNat = v.toNat) : u = v := UInt16.toNat_inj.mp h

/-- The two bytes of a code unit, in the order they were written. -/
theorem unit_unitBytes (order : ByteOrder) (u : UInt16) (bytes : List UInt8) :
    order.ofBytes (order.unitBytes u ++ bytes) = u :: order.ofBytes bytes := by
  have hlt := unit_toNat_lt u
  cases order <;>
  · simp only [ByteOrder.unitBytes, List.cons_append, List.nil_append, ByteOrder.ofBytes,
      ByteOrder.unit, List.cons.injEq, and_true]
    apply unit_ext
    rw [toNat_ofNat (by simp; omega)]
    simp
    omega

/-- The two bytes of a code unit, in the other order. -/
theorem unit_unitBytes_other (order : ByteOrder) (u : UInt16) (bytes : List UInt8) :
    order.other.ofBytes (order.unitBytes u ++ bytes) = swap u :: order.other.ofBytes bytes := by
  have hlt := unit_toNat_lt u
  cases order <;>
  · simp only [ByteOrder.unitBytes, ByteOrder.other, List.cons_append, List.nil_append,
      ByteOrder.ofBytes, ByteOrder.unit, List.cons.injEq, and_true]
    apply unit_ext
    rw [toNat_ofNat (by simp; omega), swap_toNat]
    simp
    omega

theorem toBytes_length (order : ByteOrder) (us : List UInt16) :
    (order.toBytes us).length = us.length * 2 := by
  induction us with
  | nil => rfl
  | cons u us ih =>
      have hunit : (order.unitBytes u).length = 2 := by cases order <;> rfl
      rw [ByteOrder.toBytes, List.flatMap_cons, List.length_append, hunit]
      change 2 + (order.toBytes us).length = _
      rw [ih, List.length_cons]
      omega

theorem ofBytes_toBytes (order : ByteOrder) (us : List UInt16) :
    order.ofBytes (order.toBytes us) = us := by
  induction us with
  | nil => cases order <;> rfl
  | cons u us ih =>
      change order.ofBytes (order.unitBytes u ++ order.toBytes us) = _
      rw [unit_unitBytes, ih]

/-- The two bytes that a code unit was read from. -/
theorem unitBytes_unit (order : ByteOrder) (a b : UInt8) :
    order.unitBytes (order.unit a b) = [a, b] := by
  have ha := a.toNat_lt
  have hb := b.toNat_lt
  cases order <;>
  · simp only [ByteOrder.unitBytes, ByteOrder.unit, List.cons.injEq, and_true,
      ← UInt8.toNat_inj]
    rw [toNat_ofNat (by omega)]
    simp
    omega

theorem toBytes_ofBytes (order : ByteOrder) {bytes : List UInt8} (heven : bytes.length % 2 = 0) :
    order.toBytes (order.ofBytes bytes) = bytes := by
  induction bytes using ByteOrder.ofBytes.induct with
  | case1 a b bytes ih =>
      rw [ByteOrder.ofBytes, ByteOrder.toBytes, List.flatMap_cons, unitBytes_unit]
      change a :: b :: order.toBytes (order.ofBytes bytes) = _
      rw [List.length_cons, List.length_cons] at heven
      rw [ih (by omega)]
  | case2 bytes hshort =>
      cases bytes with
      | nil => rfl
      | cons a bytes =>
        cases bytes with
        | nil => simp at heven
        | cons b bytes => exact absurd rfl (hshort a b bytes)

/-- Bytes read in the other order give the swapped code units. -/
theorem ofBytes_other_toBytes (order : ByteOrder) (us : List UInt16) :
    order.other.ofBytes (order.toBytes us) = us.map swap := by
  induction us with
  | nil => cases order <;> rfl
  | cons u us ih =>
      change order.other.ofBytes (order.unitBytes u ++ order.toBytes us) = _
      rw [unit_unitBytes_other, ih]
      rfl

theorem toBytes_injective (order : ByteOrder) : Function.Injective order.toBytes := by
  intro us vs h
  have hread := congrArg order.ofBytes h
  rwa [ofBytes_toBytes, ofBytes_toBytes] at hread

/-- Swapped code units spell the same characters only if no unit changes. -/
theorem decode_swap_iff (cs : List Char) :
    decode ((encode cs).map swap) = some cs ↔ (encode cs).map swap = encode cs := by
  constructor
  · intro h
    exact (encode_decode h).symm
  · intro h
    rw [h, decode_encode]

end Utf16

namespace Utf8

/-- The bytes of a string. -/
def encode (cs : List Char) : List UInt8 := cs.flatMap String.utf8EncodeChar

/-- The characters of a string of bytes, if it is valid. -/
def decode (bytes : List UInt8) : Option (List Char) :=
  bytes.toByteArray.utf8Decode?.map Array.toList

theorem decode_encode (cs : List Char) : decode (encode cs) = some cs := by
  have h : (encode cs).toByteArray.utf8Decode? = some cs.toArray := List.utf8Decode?_utf8Encode
  rw [decode, h]
  rfl

theorem encode_append (cs ds : List Char) : encode (cs ++ ds) = encode cs ++ encode ds :=
  List.flatMap_append

theorem encode_intercalate (separator : List Char) (texts : List (List Char)) :
    encode (separator.intercalate texts) =
      (encode separator).intercalate (texts.map encode) := by
  induction texts with
  | nil => rfl
  | cons cs texts ih =>
    cases texts with
    | nil => simp
    | cons ds texts =>
      rw [List.intercalate_cons_cons, encode_append, encode_append, ih]
      exact List.intercalate_cons_cons.symm

theorem toList_loop (bs : ByteArray) (i : Nat) (r : List UInt8) :
    ByteArray.toList.loop bs i r = r.reverse ++ bs.data.toList.drop i := by
  have hsize : bs.data.toList.length = bs.size := Array.length_toList
  induction h : bs.size - i generalizing i r with
  | zero =>
    have hi : bs.size ≤ i := Nat.le_of_sub_eq_zero h
    rw [ByteArray.toList.loop, if_neg (Nat.not_lt_of_le hi),
      List.drop_eq_nil_of_le (Nat.le_trans (Nat.le_of_eq hsize) hi), List.append_nil]
  | succ n ih =>
    have hi : i < bs.size := Nat.lt_of_sub_eq_succ h
    have hget : bs.get! i = bs.data.toList[i] := getElem!_pos bs.data i hi
    rw [ByteArray.toList.loop, if_pos hi, ih _ _ (by omega), hget,
      List.drop_eq_getElem_cons (Nat.lt_of_lt_of_eq hi hsize.symm), List.reverse_cons,
      List.append_assoc]
    rfl

/-- The bytes of a string of the language are those of its characters. -/
theorem toUTF8_toList (s : String) : s.toUTF8.toList = encode s.toList := by
  have h : s.toList.utf8Encode = s.toByteArray := String.utf8Encode_toList
  rw [String.toUTF8_eq_toByteArray, ← h, List.utf8Encode, ByteArray.toList, toList_loop,
    List.toList_data_toByteArray]
  rfl

theorem encode_injective : Function.Injective encode := by
  intro cs ds h
  have hutf8 : cs.utf8Encode = ds.utf8Encode := congrArg List.toByteArray h
  have hdecode := congrArg ByteArray.utf8Decode? hutf8
  simpa [List.utf8Decode?_utf8Encode] using hdecode

theorem toByteArray_injective : Function.Injective List.toByteArray := by
  intro bytes bytes' h
  have hdata := congrArg (fun b : ByteArray => b.data.toList) h
  simpa using hdata

theorem validateUTF8_iff (bytes : List UInt8) :
    bytes.toByteArray.validateUTF8 = true ↔ ∃ cs, bytes = encode cs := by
  rw [ByteArray.validateUTF8_eq_true_iff]
  constructor
  · rintro ⟨cs, hcs⟩
    exact ⟨cs, toByteArray_injective hcs⟩
  · rintro ⟨cs, rfl⟩
    exact ⟨cs, rfl⟩

/-- A byte below 128 is a character by itself. -/
theorem encodeChar_eq_singleton {c : Char} {b : UInt8} (hb : b ∈ String.utf8EncodeChar c)
    (hlt : b.toNat < 128) : String.utf8EncodeChar c = [b] := by
  simp only [String.utf8EncodeChar] at hb ⊢
  split_ifs at hb ⊢
  · rw [List.mem_singleton.mp hb]
  · simp at hb
    rcases hb with rfl | rfl <;> simp at hlt <;> omega
  · simp at hb
    rcases hb with rfl | rfl | rfl <;> simp at hlt <;> omega
  · simp at hb
    rcases hb with rfl | rfl | rfl | rfl <;> simp at hlt <;> omega

theorem mem_encodeChar_iff {c d : Char} {b : UInt8} (hd : String.utf8EncodeChar d = [b])
    (hlt : b.toNat < 128) : b ∈ String.utf8EncodeChar c ↔ c = d := by
  constructor
  · intro hb
    have hsame : encode [c] = encode [d] := by
      change String.utf8EncodeChar c ++ [] = String.utf8EncodeChar d ++ []
      rw [encodeChar_eq_singleton hb hlt, hd]
    exact List.singleton_inj.mp (encode_injective hsame)
  · rintro rfl
    rw [hd]
    exact List.mem_singleton_self b

theorem zero_not_mem_encode {cs : List Char} (h : '\x00' ∉ cs) : 0 ∉ encode cs := by
  intro hmem
  obtain ⟨c, hc, hzero⟩ := List.mem_flatMap.mp hmem
  obtain rfl := (mem_encodeChar_iff (d := '\x00') rfl (by decide)).mp hzero
  exact h hc

/-- A text can be cut at a byte below 128. -/
theorem encode_split {cs : List Char} {l r : List UInt8} {b : UInt8} (hlt : b.toNat < 128)
    (h : encode cs = l ++ b :: r) : (∃ ds, l = encode ds) ∧ ∃ ds, r = encode ds := by
  induction cs generalizing l with
  | nil => simp [encode] at h
  | cons c cs ih =>
      rw [encode, List.flatMap_cons] at h
      change _ ++ encode cs = _ at h
      rcases List.append_eq_append_iff.mp h with ⟨m, hl, hcs⟩ | ⟨m, hc, hr⟩
      · obtain ⟨⟨ds, hds⟩, hright⟩ := ih hcs
        refine ⟨⟨c :: ds, ?_⟩, hright⟩
        rw [hl, hds]
        rfl
      · cases m with
        | nil =>
            obtain ⟨-, hright⟩ := ih (l := []) hr.symm
            refine ⟨⟨[c], ?_⟩, hright⟩
            simpa [encode] using hc.symm
        | cons b' m =>
            rw [List.cons_append, List.cons.injEq] at hr
            obtain ⟨rfl, hrest⟩ := hr
            have hmem : b ∈ String.utf8EncodeChar c := hc ▸ by simp
            rw [encodeChar_eq_singleton hmem hlt] at hc
            have hlength := congrArg List.length hc
            simp only [List.length_append, List.length_cons, List.length_nil] at hlength
            obtain rfl : l = [] := List.eq_nil_of_length_eq_zero (by omega)
            obtain rfl : m = [] := List.eq_nil_of_length_eq_zero (by omega)
            exact ⟨⟨[], rfl⟩, cs, hrest⟩

/-- No byte of a text is one of those that a byte-order mark of UTF-16 has. -/
theorem lt_of_mem_encode {cs : List Char} {b : UInt8} (hb : b ∈ encode cs) : b.toNat < 0xF8 := by
  obtain ⟨c, -, hc⟩ := List.mem_flatMap.mp hb
  have hvalid := Utf16.char_toNat_valid c
  have hval : c.val.toNat = c.toNat := rfl
  simp only [String.utf8EncodeChar] at hc
  split_ifs at hc
  · rw [List.mem_singleton.mp hc, UInt8.toNat_ofNat']
    omega
  · simp only [List.mem_cons, List.not_mem_nil, or_false] at hc
    rcases hc with rfl | rfl <;> simp only [UInt8.toNat_ofNat'] <;> omega
  · simp only [List.mem_cons, List.not_mem_nil, or_false] at hc
    rcases hc with rfl | rfl | rfl <;> simp only [UInt8.toNat_ofNat'] <;> omega
  · simp only [List.mem_cons, List.not_mem_nil, or_false] at hc
    rcases hc with rfl | rfl | rfl | rfl <;> simp only [UInt8.toNat_ofNat'] <;> omega

end Utf8
