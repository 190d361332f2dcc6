import Mathlib.Data.List.GetD
import Mathlib.Data.Nat.Digits.Lemmas
import Sqlite3Ruby.Conversion

/-!
# Bignums that fit 64 bits

Without `rb_integer_pack`, `bignum_to_int64` reads the digit array of the
Bignum. The width of a digit is fixed when the extension is compiled.
-/

namespace Sqlite3Ruby

/-- The digit array of an integer: the magnitude, least significant digit
first, without a leading zero. -/
structure Bignum (w : Nat) where
  positive : Bool
  digits : List (BitVec w)
  noLeadingZero : digits.getLast? ≠ some 0

namespace Bignum

variable {w : Nat}

/-- The digits as numbers. -/
def places (b : Bignum w) : List Nat := b.digits.map BitVec.toNat

def magnitude (b : Bignum w) : Nat := Nat.ofDigits (2 ^ w) b.places

def toInt (b : Bignum w) : Int := if b.positive then b.magnitude else -b.magnitude

end Bignum

/-- `NUM2LL`. -/
def num2ll (v : Int) : Outcome Int64 :=
  if IsInt64 v then .ok (Int64.ofInt v)
  else .raise ⟨.RangeError, "bignum too big to convert into 'long long'"⟩

/-- The loop over the digits below `i`: whether one of them is not zero. -/
def digitBelow {w : Nat} (digits : List (BitVec w)) : Nat → Bool
  | 0 => false
  | i + 1 => digits.getD i 0 ≠ 0 || digitBelow digits i

/-- The block for an array as long as 64 bits: whether it returns 0. `2 ^ (63 % w)`
is cut to the width of a digit where it is stored in `bmax`. -/
def topDigitTooBig {w : Nat} (value : Bignum w) : Bool :=
  let digits := value.digits
  let blast := digits.getD (digits.length - 1) 0
  let bmax := BitVec.ofNat w (2 ^ (63 % w))
  if bmax < blast then true
  else if blast = bmax then
    if value.positive then true else digitBelow digits (digits.length - 1)
  else false

/-- `bignum_to_int64`, in its form with the digit array. -/
def bignumToInt64Digits {w : Nat} (value : Bignum w) : Outcome (Option Int64) :=
  let len := value.digits.length
  if len = 0 then .ok (some 0)
  else if 63 / w + 1 < len then .ok none
  else if len = 63 / w + 1 ∧ topDigitTooBig value then .ok none
  else some <$> num2ll value.toInt

/-! ## Digits of a number -/

section Digits

variable {base : Nat} {digits : List Nat}

/-- A number is its top digit and the rest below it. -/
theorem ofDigits_dropLast_add (base : Nat) (digits : List Nat) (h : digits ≠ []) :
    Nat.ofDigits base digits =
      Nat.ofDigits base digits.dropLast +
        base ^ (digits.length - 1) * digits.getLast h := by
  conv_lhs => rw [← List.dropLast_append_getLast h]
  rw [Nat.ofDigits_append, Nat.ofDigits_singleton, List.length_dropLast]

/-- A number with more than `k` digits is at least `base ^ k`. -/
theorem pow_le_ofDigits {k : Nat} (hbase : 0 < base) (hk : k < digits.length)
    (hlast : ∀ h : digits ≠ [], digits.getLast h ≠ 0) :
    base ^ k ≤ Nat.ofDigits base digits := by
  have hne : digits ≠ [] := List.ne_nil_of_length_pos (by omega)
  have htop : 1 ≤ digits.getLast hne := Nat.one_le_iff_ne_zero.mpr (hlast hne)
  calc base ^ k ≤ base ^ (digits.length - 1) := Nat.pow_le_pow_right hbase (by omega)
    _ ≤ base ^ (digits.length - 1) * digits.getLast hne := Nat.le_mul_of_pos_right _ htop
    _ ≤ Nat.ofDigits base digits := by
      rw [ofDigits_dropLast_add base digits hne]
      exact Nat.le_add_left _ _

/-- A number with at most `k` digits is below `base ^ k`. -/
theorem ofDigits_lt_pow {k : Nat} (hbase : 1 < base) (hdigits : ∀ d ∈ digits, d < base)
    (hk : digits.length ≤ k) : Nat.ofDigits base digits < base ^ k :=
  (Nat.ofDigits_lt_base_pow_length hbase hdigits).trans_le
    (Nat.pow_le_pow_right (by omega) hk)

theorem ofDigits_eq_zero_iff (hbase : 0 < base) :
    Nat.ofDigits base digits = 0 ↔ ∀ d ∈ digits, d = 0 := by
  induction digits with
  | nil => simp
  | cons d digits ih =>
    rw [Nat.ofDigits_cons, List.forall_mem_cons, ← ih]
    constructor
    · intro h
      have hmul : base * Nat.ofDigits base digits = 0 := by omega
      exact ⟨by omega, (Nat.mul_eq_zero.mp hmul).resolve_left (by omega)⟩
    · rintro ⟨rfl, htail⟩
      rw [htail, Nat.mul_zero]

end Digits

/-! ## The test for 64 bits -/

section Width

variable {w : Nat}

/-- `63 / w + 1` digits have 64 bits. -/
theorem width_mul (hw : w ∣ 64) : w * (63 / w + 1) = 64 := by
  obtain ⟨k, hk⟩ := hw
  have hpos : 0 < k := Nat.pos_of_ne_zero (by rintro rfl; simp at hk)
  have hwpos : 0 < w := Nat.pos_of_ne_zero (by rintro rfl; simp at hk)
  have hdiv : 63 / w = k - 1 := by
    apply Nat.div_eq_of_lt_le
    · rw [Nat.mul_comm, Nat.mul_sub_one]
      omega
    · rw [Nat.sub_add_cancel hpos, Nat.mul_comm, ← hk]
      omega
  rw [hdiv, Nat.sub_add_cancel hpos, ← hk]

theorem width_pos (hw : w ∣ 64) : 0 < w := Nat.pos_of_dvd_of_pos hw (by decide)

/-- The bit that `bmax` has is the highest one of a digit. -/
theorem bit_mod (hw : w ∣ 64) : 63 % w = w - 1 := by
  have hmul := width_mul hw
  have hdiv := Nat.div_add_mod 63 w
  have hmod := Nat.mod_lt 63 (width_pos hw)
  rw [Nat.mul_add] at hmul
  omega

theorem toNat_bmax (hw : w ∣ 64) : (BitVec.ofNat w (2 ^ (63 % w))).toNat = 2 ^ (w - 1) := by
  have hpos := width_pos hw
  rw [bit_mod hw, BitVec.toNat_ofNat]
  exact Nat.mod_eq_of_lt (Nat.pow_lt_pow_right (by decide) (by omega))

theorem pow_places (hw : w ∣ 64) : (2 ^ w) ^ (63 / w + 1) = 2 ^ 64 := by
  rw [← Nat.pow_mul, width_mul hw]

/-- What one unit of the top digit counts, times the value of `bmax`. -/
theorem pow_top (hw : w ∣ 64) : (2 ^ w) ^ (63 / w) * 2 ^ (w - 1) = 2 ^ 63 := by
  have hmul := width_mul hw
  have hpos := width_pos hw
  rw [← Nat.pow_mul, ← Nat.pow_add]
  congr 1
  rw [Nat.mul_add] at hmul
  omega

end Width

namespace Bignum

variable {w : Nat} (b : Bignum w)

theorem places_lt : ∀ d ∈ b.places, d < 2 ^ w := by
  intro d hd
  obtain ⟨digit, -, rfl⟩ := List.mem_map.mp hd
  exact digit.isLt

theorem length_places : b.places.length = b.digits.length := List.length_map _

theorem getLast_places (h : b.places ≠ []) : b.places.getLast h ≠ 0 := by
  intro hzero
  have hlast : b.places.getLast? = some 0 := by
    rw [List.getLast?_eq_some_getLast h, hzero]
  rw [places, List.getLast?_map, Option.map_eq_some_iff] at hlast
  obtain ⟨digit, hdigit, hnat⟩ := hlast
  have hdigit_zero : digit = 0 := BitVec.eq_of_toNat_eq hnat
  exact b.noLeadingZero (hdigit.trans (congrArg some hdigit_zero))

/-- An integer has 64 bits when its magnitude is below `2 ^ 63`, or just at it
below zero. -/
theorem isInt64_toInt_iff :
    IsInt64 b.toInt ↔ b.magnitude < 2 ^ 63 ∨ b.positive = false ∧ b.magnitude = 2 ^ 63 := by
  rw [IsInt64, toInt]
  cases hpositive : b.positive with
  | true =>
    simp only [if_true, Bool.true_eq_false, false_and, or_false]
    omega
  | false =>
    simp only [Bool.false_eq_true, if_false, true_and]
    omega

section OfInt

variable (hw : 0 < w) (v : Int)

/-- The digits of the magnitude of `v`. -/
def digitsOf (w : Nat) (v : Int) : List (BitVec w) :=
  (Nat.digits (2 ^ w) v.natAbs).map (BitVec.ofNat w)

include hw

theorem map_digitsOf :
    (digitsOf w v).map BitVec.toNat = Nat.digits (2 ^ w) v.natAbs := by
  have hbase : 1 < 2 ^ w := Nat.one_lt_two_pow (by omega)
  have hsame : ∀ d ∈ Nat.digits (2 ^ w) v.natAbs, (BitVec.ofNat w d).toNat = d :=
    fun d hd => Nat.mod_eq_of_lt (Nat.digits_lt_base hbase hd)
  rw [digitsOf, List.map_map]
  exact (List.map_congr_left hsame).trans (List.map_id _)

theorem getLast?_digitsOf : (digitsOf w v).getLast? ≠ some 0 := by
  intro hlast
  have hnat : (Nat.digits (2 ^ w) v.natAbs).getLast? = some 0 := by
    rw [← map_digitsOf hw v, List.getLast?_map, hlast]
    rfl
  have hne : Nat.digits (2 ^ w) v.natAbs ≠ [] := by
    intro hnil
    rw [hnil] at hnat
    cases hnat
  have htop := Nat.getLast_digit_ne_zero (2 ^ w) (Nat.digits_ne_nil_iff_ne_zero.mp hne)
  rw [List.getLast?_eq_some_getLast hne] at hnat
  exact htop (Option.some.inj hnat)

/-- Every integer has a digit array. -/
theorem exists_toInt_eq : ∃ b : Bignum w, b.toInt = v := by
  refine ⟨⟨decide (0 ≤ v), digitsOf w v, getLast?_digitsOf hw v⟩, ?_⟩
  rw [toInt, magnitude, places, map_digitsOf hw v, Nat.ofDigits_digits]
  split_ifs with hsign
  · have := of_decide_eq_true hsign
    omega
  · have : ¬ 0 ≤ v := fun h => hsign (decide_eq_true h)
    omega

end OfInt

/-! ### The comparison of the top digit -/

section Full

variable (hw : w ∣ 64) (hlen : b.digits.length = 63 / w + 1)

include hw hlen

theorem magnitude_full :
    ∃ low, (low = 0 ↔ ∀ d ∈ b.places.dropLast, d = 0) ∧ low < (2 ^ w) ^ (63 / w) ∧
      b.magnitude = low + (2 ^ w) ^ (63 / w) * (b.digits.getD (b.digits.length - 1) 0).toNat := by
  have hbase : 1 < 2 ^ w := Nat.one_lt_two_pow (width_pos hw).ne'
  have hne : b.places ≠ [] := by
    apply List.ne_nil_of_length_pos
    rw [length_places, hlen]
    exact Nat.succ_pos _
  have htop : b.places.getLast hne = (b.digits.getD (b.digits.length - 1) 0).toNat := by
    rw [List.getLast_eq_getElem]
    simp only [places, List.getElem_map, List.length_map]
    rw [List.getD_eq_getElem]
  refine ⟨Nat.ofDigits (2 ^ w) b.places.dropLast, ofDigits_eq_zero_iff (by omega), ?_, ?_⟩
  · have hdigits : ∀ d ∈ b.places.dropLast, d < 2 ^ w :=
      fun d hd => b.places_lt d (List.mem_of_mem_dropLast hd)
    have hlow : b.places.dropLast.length = 63 / w := by
      rw [List.length_dropLast, length_places, hlen, Nat.add_sub_cancel]
    exact ofDigits_lt_pow hbase hdigits hlow.le
  · rw [magnitude, ofDigits_dropLast_add _ _ hne, length_places, hlen, htop, hlen]
    rfl

end Full

/-- The loop looks at the digits below its counter. -/
theorem digitBelow_eq_true_iff (digits : List (BitVec w)) (i : Nat) :
    digitBelow digits i = true ↔ ∃ d ∈ digits.take i, d ≠ 0 := by
  induction i with
  | zero => simp [digitBelow]
  | succ i ih =>
    rw [digitBelow, Bool.or_eq_true, ih, List.take_add_one]
    rcases Nat.lt_or_ge i digits.length with hi | hi
    · rw [List.getD_eq_getElem _ _ hi, List.getElem?_eq_getElem hi]
      simp only [decide_eq_true_eq, Option.toList_some, List.mem_append, List.mem_singleton,
        or_and_right, exists_or, exists_eq_left]
      exact or_comm
    · rw [List.getD_eq_default _ _ hi, List.getElem?_eq_none hi]
      simp

/-- The loop finds nothing exactly when the digits below the top one are zero. -/
theorem digitBelow_eq_false_iff :
    digitBelow b.digits (b.digits.length - 1) = false ↔ ∀ d ∈ b.places.dropLast, d = 0 := by
  rw [← Bool.not_eq_true, digitBelow_eq_true_iff, ← List.dropLast_eq_take, places,
    ← List.map_dropLast, List.forall_mem_map]
  push Not
  apply forall₂_congr
  intro d _
  exact ⟨fun h => by rw [h]; rfl, fun h => BitVec.eq_of_toNat_eq h⟩

/-- More digits than 64 bits have. -/
theorem not_isInt64_of_long (hw : w ∣ 64) (hlen : 63 / w + 1 < b.digits.length) :
    ¬ IsInt64 b.toInt := by
  have hlarge : 2 ^ 64 ≤ b.magnitude := by
    rw [← pow_places hw]
    exact pow_le_ofDigits (Nat.two_pow_pos w) (by rwa [length_places]) b.getLast_places
  rw [isInt64_toInt_iff]
  omega

/-- Fewer digits than 64 bits have. -/
theorem isInt64_of_short (hw : w ∣ 64) (hlen : b.digits.length ≤ 63 / w) : IsInt64 b.toInt := by
  have hbase : 1 < 2 ^ w := Nat.one_lt_two_pow (width_pos hw).ne'
  have hsmall : b.magnitude < 2 ^ 63 := by
    calc b.magnitude < (2 ^ w) ^ (63 / w) :=
          ofDigits_lt_pow hbase b.places_lt (by rwa [length_places])
      _ ≤ (2 ^ w) ^ (63 / w) * 2 ^ (w - 1) := Nat.le_mul_of_pos_right _ (Nat.two_pow_pos _)
      _ = 2 ^ 63 := pow_top hw
  rw [isInt64_toInt_iff]
  exact Or.inl hsmall

/-- The top digit decides, and at `bmax` the sign and the digits below. -/
theorem topDigitTooBig_eq_false_iff (hw : w ∣ 64) :
    topDigitTooBig b = false ↔
      (b.digits.getD (b.digits.length - 1) 0).toNat < 2 ^ (w - 1) ∨
        (b.digits.getD (b.digits.length - 1) 0).toNat = 2 ^ (w - 1) ∧ b.positive = false ∧
          digitBelow b.digits (b.digits.length - 1) = false := by
  have hbmax := toNat_bmax hw
  simp only [topDigitTooBig, BitVec.lt_def, ← BitVec.toNat_inj, hbmax]
  generalize (b.digits.getD (b.digits.length - 1) 0).toNat = blast
  rcases Nat.lt_trichotomy blast (2 ^ (w - 1)) with hlt | heq | hgt
  · rw [if_neg hlt.asymm, if_neg hlt.ne]
    exact iff_of_true rfl (Or.inl hlt)
  · rw [heq, if_neg (Nat.lt_irrefl _), if_pos rfl]
    cases b.positive <;> simp
  · rw [if_pos hgt]
    simp [hgt.not_gt, hgt.ne']

/-- With as many digits as 64 bits have, the block for the top digit is the test. -/
theorem isInt64_full_iff (hw : w ∣ 64) (hlen : b.digits.length = 63 / w + 1) :
    IsInt64 b.toInt ↔ topDigitTooBig b = false := by
  obtain ⟨low, hzero, hlow, hmagnitude⟩ := b.magnitude_full hw hlen
  rw [isInt64_toInt_iff, b.topDigitTooBig_eq_false_iff hw, digitBelow_eq_false_iff, ← hzero,
    hmagnitude]
  have htop := pow_top hw
  generalize (b.digits.getD (b.digits.length - 1) 0).toNat = top
  generalize (2 ^ w) ^ (63 / w) = unit at hlow htop ⊢
  generalize 2 ^ (w - 1) = half at htop ⊢
  rcases Nat.lt_trichotomy top half with hlt | heq | hgt
  · have hbelow : unit * (top + 1) ≤ unit * half := Nat.mul_le_mul_left unit hlt
    rw [Nat.mul_add_one] at hbelow
    exact iff_of_true (Or.inl (by omega)) (Or.inl hlt)
  · rw [heq, htop]
    simp
  · have habove : unit * (half + 1) ≤ unit * top := Nat.mul_le_mul_left unit hgt
    rw [Nat.mul_add_one] at habove
    have hlarge : 2 ^ 63 < low + unit * top := by omega
    apply iff_of_false
    · rintro (hsmall | ⟨-, hmin⟩) <;> omega
    · rintro (hbelow | ⟨heq, -⟩) <;> omega

end Bignum

section Forms

variable {w : Nat} (hw : w ∣ 64) (b : Bignum w)

include hw

/-- The digit form succeeds exactly on the integers of 64 bits, and `NUM2LL`
never raises in it. -/
theorem bignumToInt64Digits_eq :
    bignumToInt64Digits b =
      .ok (if IsInt64 b.toInt then some (Int64.ofInt b.toInt) else none) := by
  have hconvert : IsInt64 b.toInt →
      some <$> num2ll b.toInt = .ok (some (Int64.ofInt b.toInt)) := by
    intro h
    rw [num2ll, if_pos h, Outcome.map_ok]
  rw [bignumToInt64Digits]
  rcases Nat.lt_trichotomy b.digits.length (63 / w + 1) with hshort | hfull | hlong
  · have hfits := b.isInt64_of_short hw (Nat.le_of_lt_succ hshort)
    rw [if_neg hshort.asymm, if_neg (fun h : _ ∧ _ => hshort.ne h.1), if_pos hfits,
      hconvert hfits]
    by_cases hempty : b.digits.length = 0
    · have hzero : b.toInt = 0 := by
        simp [Bignum.toInt, Bignum.magnitude, Bignum.places, List.length_eq_zero_iff.mp hempty]
      rw [if_pos hempty, hzero]
      rfl
    · rw [if_neg hempty]
  · have hpos : b.digits.length ≠ 0 := by rw [hfull]; exact Nat.succ_ne_zero _
    rw [if_neg hpos, if_neg hfull.not_gt]
    by_cases hfits : IsInt64 b.toInt
    · have htop := (b.isInt64_full_iff hw hfull).mp hfits
      rw [if_pos hfits, hconvert hfits, if_neg]
      exact fun h => Bool.false_ne_true (htop.symm.trans h.2)
    · have htop := mt (b.isInt64_full_iff hw hfull).mpr hfits
      rw [if_neg hfits, if_pos ⟨hfull, Bool.of_not_eq_false htop⟩]
  · have hpos : b.digits.length ≠ 0 := Nat.ne_zero_of_lt hlong
    rw [if_neg hpos, if_pos hlong, if_neg (b.not_isInt64_of_long hw hlong)]

/-- Both forms return an integer of 64 bits and refuse every other one. -/
theorem bignumToInt64_forms (v : Int) :
    (∃ b : Bignum w, b.toInt = v) ∧
      ∀ b : Bignum w, b.toInt = v →
        bignumToInt64Digits b = .ok (bignumToInt64 v) ∧
          (-2 ^ 63 ≤ v ∧ v < 2 ^ 63 → ∃ result, bignumToInt64 v = some result ∧
            result.toInt = v) ∧
          (¬ (-2 ^ 63 ≤ v ∧ v < 2 ^ 63) → bignumToInt64 v = none) := by
  refine ⟨Bignum.exists_toInt_eq (width_pos hw) v, ?_⟩
  rintro b rfl
  rw [bignumToInt64Digits_eq hw, bignumToInt64_eq]
  refine ⟨rfl, fun h => ?_, fun h => if_neg h⟩
  exact ⟨Int64.ofInt b.toInt, if_pos h, toInt_ofInt h⟩

end Forms

/-- At the lower bound, with digits of 32 bits. -/
theorem bignumToInt64_forms_min :
    32 ∣ 64 ∧ bignumToInt64Digits (⟨false, [0, 0x80000000], by decide⟩ : Bignum 32) =
      .ok (bignumToInt64 (-2 ^ 63)) :=
  ⟨by decide, ((bignumToInt64_forms (by decide) (-2 ^ 63)).2 _ (by decide)).1⟩

end Sqlite3Ruby
