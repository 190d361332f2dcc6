import Mathlib.Data.List.DropRight
import Mathlib.Data.List.Nodup
import Sqlite3Ruby.Lib.Binary64
import Sqlite3Ruby.Lib.Unicode
import Sqlite3Ruby.Ruby.Exception

/-!
# Ruby values

The objects that cross the border between Ruby and SQLite, with the parts that
the extension looks at: the type tag, the class and the encoding of a string,
and what an arbitrary object does when it is converted to an integer.
-/

namespace Sqlite3Ruby

/-- `SIZEOF_LONG`. -/
inductive SizeofLong
  | four
  | eight
  deriving DecidableEq

def SizeofLong.bytes : SizeofLong → Nat
  | .four => 4
  | .eight => 8

/-- The least integer above every Fixnum. -/
def SizeofLong.fixnumEnd (long : SizeofLong) : Int := 2 ^ (8 * long.bytes - 2)

/-- An Integer is a Fixnum when it fits in `SIZEOF_LONG * 8 - 1` bits. -/
def SizeofLong.isFixnum (long : SizeofLong) (n : Int) : Bool :=
  -long.fixnumEnd ≤ n && n < long.fixnumEnd

/-- `CLASS_OF` a string. An instance of a subclass, or with a singleton class,
has neither `String` nor `SQLite3::Blob` as its class. -/
inductive StringClass
  | string
  | blob
  | other (name : String)
  deriving DecidableEq

/-- The encodings the extension tells apart. The others are known by their index. -/
inductive Encoding
  | ascii8bit
  | utf8
  | usAscii
  | utf16 (order : Utf16.ByteOrder)
  | other (index : Nat)
  deriving DecidableEq

structure RString where
  klass : StringClass
  encoding : Encoding
  bytes : List UInt8
  deriving DecidableEq

/-- A Ruby value. An object of any other class is its class and what `to_int`
makes of it. -/
inductive Value
  | nil
  | true_
  | false_
  | integer (n : Int)
  | float (d : Binary64)
  | string (s : RString)
  | object (klass : String) (toInt : Outcome Int)
  deriving DecidableEq

def StringClass.name : StringClass → String
  | .string => "String"
  | .blob => "SQLite3::Blob"
  | .other name => name

/-- `rb_class2name(CLASS_OF(value))`. -/
def Value.className : Value → String
  | .nil => "NilClass"
  | .true_ => "TrueClass"
  | .false_ => "FalseClass"
  | .integer _ => "Integer"
  | .float _ => "Float"
  | .string s => s.klass.name
  | .object klass _ => klass

/-- `rb_hash_aset`. -/
def hashAset {α β : Type} [DecidableEq α] (hash : List (α × β)) (key : α) (value : β) :
    List (α × β) :=
  if hash.any (·.1 = key) then hash.map fun e => if e.1 = key then (key, value) else e
  else hash ++ [(key, value)]

/-- Where every key has one entry, a look-up finds just the entries. -/
theorem lookup_eq_some_iff_mem {α β : Type} [BEq α] [LawfulBEq α] {hash : List (α × β)}
    (hkeys : (hash.map Prod.fst).Nodup) {key : α} {value : β} :
    hash.lookup key = some value ↔ (key, value) ∈ hash := by
  constructor
  · intro h
    obtain ⟨before, after, hsplit, -⟩ := List.lookup_eq_some_iff.mp h
    rw [hsplit]
    simp
  · intro h
    cases hlookup : hash.lookup key with
    | none =>
        have hne := List.lookup_eq_none_iff.mp hlookup _ h
        simp at hne
    | some found =>
        obtain ⟨before, after, hsplit, -⟩ := List.lookup_eq_some_iff.mp hlookup
        have hfound : (key, found) ∈ hash := by rw [hsplit]; simp
        exact congrArg some (congrArg Prod.snd (List.inj_on_of_nodup_map hkeys hfound h rfl))

def raiseRange (message : String) : Outcome Int := .raise ⟨.RangeError, message⟩

/-- A C `int`, as `NUM2INT` checks it. -/
def checkInt (n : Int) : Outcome Int :=
  if n < -2 ^ 31 then raiseRange ("integer " ++ toString n ++ " too small to convert to 'int'")
  else if 2 ^ 31 ≤ n then
    raiseRange ("integer " ++ toString n ++ " too big to convert to 'int'")
  else .ok n

/-- `NUM2INT`. A Float is truncated; an object is asked for `to_int`. -/
def num2int : Value → Outcome Int
  | .integer n => checkInt n
  | .float d =>
      if d.isFinite then checkInt (d.units.tdiv Binary64.one)
      else raiseRange "float out of range of integer"
  | .object _ toInt => toInt >>= checkInt
  | .nil => .raise ⟨.TypeError, "no implicit conversion from nil to integer"⟩
  | .true_ => .raise ⟨.TypeError, "no implicit conversion of true into Integer"⟩
  | .false_ => .raise ⟨.TypeError, "no implicit conversion of false into Integer"⟩
  | .string s => .raise ⟨.TypeError, "no implicit conversion of " ++ s.klass.name ++ " into Integer"⟩

/-! ## Strings -/

/-- `rb_enc_name`. -/
def Encoding.name : Encoding → String
  | ascii8bit => "BINARY"
  | utf8 => "UTF-8"
  | usAscii => "US-ASCII"
  | utf16 .little => "UTF-16LE"
  | utf16 .big => "UTF-16BE"
  | other index => "encoding " ++ toString index

/-- The bytes are not valid in the encoding. Those of the encodings known by their
index are the host's to look at. -/
def RString.isBroken (s : RString) : Bool :=
  match s.encoding with
  | .utf8 => !s.bytes.toByteArray.validateUTF8
  | .usAscii => s.bytes.any (128 ≤ ·)
  | .utf16 order => s.bytes.length % 2 = 1 || (Utf16.decode (order.ofBytes s.bytes)).isNone
  | .ascii8bit | .other _ => false

/-- Whitespace, NUL included. -/
def isSpace (n : Nat) : Bool := n = 0 || 9 ≤ n && n ≤ 13 || n = 32

def stripSpaces {α : Type} (code : α → Nat) (l : List α) : List α :=
  (l.dropWhile fun a => isSpace (code a)).rdropWhile fun a => isSpace (code a)

/-- What Ruby raises for a string that it cannot convert. -/
inductive ConversionFailure
  | invalidByteSequence (message : String)
  | undefinedConversion (message : String)
  | converterNotFound (message : String)

def ConversionFailure.exception : ConversionFailure → RubyException
  | invalidByteSequence message => ⟨.InvalidByteSequenceError, message⟩
  | undefinedConversion message => ⟨.UndefinedConversionError, message⟩
  | converterNotFound message => ⟨.ConverterNotFoundError, message⟩

/-- What the code depends on outside of its sources: the C compiler, the
machine, and Ruby's tables for the encodings without a name here. `characters` are the
code points of a valid string, with the bytes of each. -/
structure Host where
  long : SizeofLong
  byteOrder : Utf16.ByteOrder
  transcode : Nat → List UInt8 → Option (List Char)
  characters : Nat → List UInt8 → Option (List (Nat × List UInt8))
  isDummy : Nat → Bool
  conversionFailure : Encoding → List UInt8 → ConversionFailure

/-- `String#strip`. -/
def RString.strip (host : Host) (s : RString) : Outcome RString :=
  if s.isBroken then .raise ⟨.ArgumentError, "invalid byte sequence in " ++ s.encoding.name⟩
  else
    match s.encoding with
    | .utf16 order =>
        .ok { s with
          bytes := order.toBytes (stripSpaces UInt16.toNat (order.ofBytes s.bytes)) }
    | .other index =>
        if host.isDummy index then
          .raise ⟨.CompatibilityError,
            "incompatible encoding with this operation: " ++ s.encoding.name⟩
        else
          match host.characters index s.bytes with
          | some characters =>
              .ok { s with bytes := (stripSpaces Prod.fst characters).flatMap Prod.snd }
          | none => .raise ⟨.ArgumentError, "invalid byte sequence in " ++ s.encoding.name⟩
    | _ => .ok { s with bytes := stripSpaces UInt8.toNat s.bytes }

theorem checkInt_returns_iff (n : Int) : (checkInt n).Returns ↔ -2 ^ 31 ≤ n ∧ n < 2 ^ 31 := by
  unfold checkInt raiseRange
  split
  · exact iff_of_false (Outcome.not_returns_raise _) (by omega)
  · split
    · exact iff_of_false (Outcome.not_returns_raise _) (by omega)
    · exact iff_of_true (Outcome.returns_ok _) (by omega)

theorem checkInt_eq_ok {n m : Int} (h : checkInt n = .ok m) : m = n := by
  unfold checkInt raiseRange at h
  split at h
  · cases h
  · split at h
    · cases h
    · exact (Outcome.ok.inj h).symm

/-! ## Stripping -/

/-- What is skipped of an encoding, when its units are skipped as their characters are. -/
theorem dropWhile_flatMap {α β : Type} {p : β → Bool} {q : α → Bool} {enc : α → List β}
    (hne : ∀ a, enc a ≠ []) (h : ∀ a, ∀ b ∈ enc a, p b = q a) (l : List α) :
    (l.flatMap enc).dropWhile p = (l.dropWhile q).flatMap enc := by
  induction l with
  | nil => rfl
  | cons a l ih =>
      rw [List.flatMap_cons]
      cases ha : q a with
      | true =>
          rw [List.dropWhile_append_of_pos fun b hb => (h a b hb).trans ha, ih,
            List.dropWhile_cons_of_pos ha]
      | false =>
          obtain ⟨b, rest, henc⟩ := List.exists_cons_of_ne_nil (hne a)
          have hb : p b = false := (h a b (by simp [henc])).trans ha
          rw [List.dropWhile_cons_of_neg (by simp [ha]), List.flatMap_cons, henc,
            List.cons_append, List.dropWhile_cons_of_neg (by simp [hb])]

/-- Stripping goes through an encoding in which a unit is whitespace exactly when its
character is. -/
theorem stripSpaces_flatMap {α β : Type} {code : α → Nat} {unit : β → Nat} {enc : α → List β}
    (hne : ∀ a, enc a ≠ []) (hspace : ∀ a, ∀ b ∈ enc a, isSpace (unit b) = isSpace (code a))
    (l : List α) :
    stripSpaces unit (l.flatMap enc) = (stripSpaces code l).flatMap enc := by
  have hreverse (l : List α) :
      (l.flatMap enc).reverse = l.reverse.flatMap fun a => (enc a).reverse := by
    rw [List.reverse_flatMap]
    rfl
  have hdrop : ((l.dropWhile fun a => isSpace (code a)).reverse.flatMap fun a =>
        (enc a).reverse).dropWhile (fun b => isSpace (unit b)) = _ :=
    dropWhile_flatMap (fun a => by simpa using hne a)
      (fun a b hb => hspace a b (List.mem_reverse.mp hb)) _
  rw [stripSpaces, stripSpaces, dropWhile_flatMap hne hspace, List.rdropWhile, List.rdropWhile,
    hreverse, hdrop, List.reverse_flatMap]
  simp only [Function.comp_def, List.reverse_reverse]

/-- A stripped list does not begin with whitespace. -/
theorem strip_head {α : Type} {code : α → Nat} {l : List α} {a : α}
    (h : (stripSpaces code l).head? = some a) : isSpace (code a) = false := by
  have hprefix := List.rdropWhile_prefix (fun a => isSpace (code a))
    (l.dropWhile fun a => isSpace (code a))
  have hhead : (l.dropWhile fun a => isSpace (code a)).head? = some a := by
    obtain ⟨rest, hrest⟩ := hprefix
    rw [← hrest, List.head?_append]
    change (stripSpaces code l).head?.or rest.head? = some a
    rw [h, Option.some_or]
  have hnot := List.head?_dropWhile_not (fun a => isSpace (code a)) l
  rw [hhead] at hnot
  simpa using hnot

theorem strip_strip {α : Type} (code : α → Nat) (l : List α) :
    stripSpaces code (stripSpaces code l) = stripSpaces code l := by
  have hdrop : (stripSpaces code l).dropWhile (fun a => isSpace (code a)) = stripSpaces code l := by
    cases hstrip : stripSpaces code l with
    | nil => rfl
    | cons a rest =>
        have hspace : isSpace (code a) = false := strip_head (l := l) (by rw [hstrip]; rfl)
        exact List.dropWhile_cons_of_neg (by simp [hspace])
  rw [stripSpaces, hdrop]
  exact List.rdropWhile_idempotent _ _

theorem strip_sublist {α : Type} (code : α → Nat) (l : List α) :
    (stripSpaces code l).Sublist l :=
  ((List.rdropWhile_prefix _ _).sublist).trans (List.dropWhile_sublist _)

/-- A rest of a stripped list has whitespace in front of it only. -/
theorem strip_rest {α : Type} {code : α → Nat} {l rest : List α}
    (h : stripSpaces code (l ++ rest) = l ++ rest) :
    stripSpaces code rest = rest.dropWhile fun a => isSpace (code a) := by
  have hlast : ∀ hne : stripSpaces code (l ++ rest) ≠ [],
      ¬ isSpace (code ((stripSpaces code (l ++ rest)).getLast hne)) = true :=
    List.rdropWhile_last_not _ _
  rw [h] at hlast
  refine List.rdropWhile_eq_self_iff.mpr fun hne => ?_
  have hsplit : l ++ rest = l ++ rest.takeWhile (fun a => isSpace (code a)) ++
      rest.dropWhile fun a => isSpace (code a) := by
    rw [List.append_assoc, List.takeWhile_append_dropWhile]
  have hgetLast : (l ++ rest).getLast? =
      (rest.dropWhile fun a => isSpace (code a)).getLast? := by
    rw [hsplit, List.getLast?_append_of_ne_nil _ hne]
  have hne' : l ++ rest ≠ [] := by
    rw [hsplit]
    exact List.append_ne_nil_of_right_ne_nil _ hne
  rw [List.getLast?_eq_some_getLast hne', List.getLast?_eq_some_getLast hne] at hgetLast
  rw [← Option.some.inj hgetLast]
  exact hlast hne'

theorem isSpace_lt {n : Nat} (h : isSpace n = true) : n < 128 := by
  simp [isSpace] at h
  omega

theorem isSpace_utf8 (c : Char) :
    ∀ b ∈ String.utf8EncodeChar c, isSpace b.toNat = isSpace c.toNat := by
  intro b hb
  have hval : c.val.toNat = c.toNat := rfl
  simp only [String.utf8EncodeChar] at hb
  split_ifs at hb with h1 h2 h3
  · rw [List.mem_singleton.mp hb, UInt8.toNat_ofNat', hval, Nat.mod_eq_of_lt (by omega)]
  all_goals
    have hc : isSpace c.toNat = false := Bool.eq_false_iff.mpr fun h => by
      have hlt := isSpace_lt h
      omega
    have hb' : isSpace b.toNat = false := Bool.eq_false_iff.mpr fun h => by
      have hlt := isSpace_lt h
      simp at hb
      rcases hb with rfl | rfl | rfl | rfl <;> simp at hlt <;> omega
    rw [hc, hb']

theorem isSpace_utf16 (c : Char) : ∀ u ∈ Utf16.encodeChar c, isSpace u.toNat = isSpace c.toNat := by
  intro u hu
  have hvalid := Utf16.char_toNat_valid c
  rw [Utf16.encodeChar] at hu
  split_ifs at hu with hlt
  · rw [List.mem_singleton.mp hu, Utf16.toNat_ofNat hlt]
  · have hc : isSpace c.toNat = false := Bool.eq_false_iff.mpr fun h => by
      have := isSpace_lt h
      omega
    have hu' : isSpace u.toNat = false := Bool.eq_false_iff.mpr fun h => by
      have hsmall := isSpace_lt h
      rcases List.mem_pair.mp hu with rfl | rfl
      · rw [Utf16.toNat_ofNat (by omega)] at hsmall
        omega
      · rw [Utf16.toNat_ofNat (by omega)] at hsmall
        omega
    rw [hc, hu']
theorem strip_utf8 (cs : List Char) :
    stripSpaces UInt8.toNat (Utf8.encode cs) = Utf8.encode (stripSpaces Char.toNat cs) :=
  stripSpaces_flatMap (fun _ => String.utf8EncodeChar_ne_nil) isSpace_utf8 cs

theorem strip_utf16 (cs : List Char) :
    stripSpaces UInt16.toNat (Utf16.encode cs) = Utf16.encode (stripSpaces Char.toNat cs) := by
  refine stripSpaces_flatMap (fun c => ?_) isSpace_utf16 cs
  rw [Utf16.encodeChar]
  split <;> simp

end Sqlite3Ruby
