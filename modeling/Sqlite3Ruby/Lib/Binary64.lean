import Mathlib.Algebra.Order.Ring.Abs
import Mathlib.Algebra.Order.Ring.Int
import Mathlib.Tactic.Linarith
import Mathlib.Tactic.Ring

/-!
# The binary64 format

A double is its bit pattern: a sign and a magnitude of 63 bits, whose order is
the order of the absolute values. `ofInt` rounds an integer to a nearest
double, ties to even, and to an infinity when the integer is too large. `add` rounds the exact
sum in the same way.

## Implementation notes

A finite double is an integer multiple of `2 ^ -1074`, so values are compared
as integers in this unit. The significand of a normal number carries its
leading bit, and is added to the exponent field rather than combined with it:
a significand that rounds up to the next power of two then carries into the
exponent by itself.
-/

/-- The bit pattern of a double. -/
structure Binary64 where
  bits : BitVec 64
  deriving DecidableEq

namespace Binary64

/-- The magnitude of the infinities. -/
abbrev infinity : Nat := 2047 * 2 ^ 52

def negative (b : Binary64) : Bool := b.bits.msb

/-- All bits but the sign. -/
def magnitude (b : Binary64) : Nat := b.bits.toNat % 2 ^ 63

def isNaN (b : Binary64) : Bool := infinity < b.magnitude

def isFinite (b : Binary64) : Bool := b.magnitude < infinity

/-- The absolute value of a magnitude in units of `2 ^ -1074`. -/
def unitsOf (m : Nat) : Nat :=
  if m < 2 ^ 52 then m else (2 ^ 52 + m % 2 ^ 52) * 2 ^ (m / 2 ^ 52 - 1)

/-- The number 1 in units of `2 ^ -1074`. -/
def one : Nat := 2 ^ 1074

/-- The least integer that rounds to infinity: half a unit in the last place
above the greatest finite double. -/
def overflow : Nat := 2 ^ 1024 - 2 ^ 970

/-- The value of a finite double in units of `2 ^ -1074`. -/
def units (b : Binary64) : Int :=
  if b.negative then -(unitsOf b.magnitude : Int) else unitsOf b.magnitude

/-- The double with the given sign and magnitude. -/
def make (negative : Bool) (magnitude : Nat) : Binary64 :=
  ⟨BitVec.ofNat 64 (if negative then 2 ^ 63 + magnitude else magnitude)⟩

/-- `a / d`, rounded to a nearest integer, ties to even. -/
def divNearest (a d : Nat) : Nat :=
  if 2 * (a % d) < d ∨ (2 * (a % d) = d ∧ a / d % 2 = 0) then a / d else a / d + 1

/-- The significand of `n`, from `2 ^ 52` to `2 ^ 53`. -/
def significand (n : Nat) : Nat := divNearest (n * 2 ^ 52) (2 ^ n.log2)

/-- The magnitude of `n`, at most that of the infinities. -/
def roundNat (n : Nat) : Nat :=
  if n = 0 then 0 else min ((n.log2 + 1022) * 2 ^ 52 + significand n) infinity

/-- The double nearest to `n`. -/
def ofInt (n : Int) : Binary64 := make (n < 0) (roundNat n.natAbs)

/-- The magnitude of `n` units of `2 ^ -1074`, at most that of the infinities. -/
def roundUnits (n : Nat) : Nat :=
  if n < 2 ^ 53 then n
  else min ((n.log2 - 52) * 2 ^ 52 + divNearest n (2 ^ (n.log2 - 52))) infinity

def nan : Binary64 := make false (infinity + 1)

/-- The sum, rounded to a nearest double. -/
def add (a b : Binary64) : Binary64 :=
  if a.isNaN || b.isNaN then nan
  else if a.isFinite && b.isFinite then
    let sum := a.units + b.units
    make (sum < 0 ∨ (sum = 0 ∧ a.negative ∧ b.negative)) (roundUnits sum.natAbs)
  else if a.isFinite then b
  else if b.isFinite || a.negative == b.negative then a
  else nan

/-- `a < b`, which no NaN is in. The infinities lie beyond all finite doubles. -/
def lt (a b : Binary64) : Bool := !a.isNaN && !b.isNaN && a.units < b.units

/-! ## Fields -/

theorem make_negative (s : Bool) {m : Nat} (hm : m < 2 ^ 63) : (make s m).negative = s := by
  simp only [make, negative, BitVec.msb_eq_decide, BitVec.toNat_ofNat]
  cases s <;> simp <;> omega

theorem make_magnitude (s : Bool) {m : Nat} (hm : m < 2 ^ 63) : (make s m).magnitude = m := by
  simp only [make, magnitude, BitVec.toNat_ofNat]
  cases s <;> simp <;> omega

/-! ## The nearest multiple -/

/-- The rounded quotient is off by at most one half. -/
theorem two_mul_abs_sub_divNearest_le (a : Nat) {d : Nat} (hd : 0 < d) :
    2 * |(a : Int) - divNearest a d * d| ≤ d := by
  have hmod := Nat.mod_lt a hd
  have hdiv : (a : Int) = d * (a / d : Nat) + (a % d : Nat) := by
    exact_mod_cast (Nat.div_add_mod a d).symm
  rw [divNearest]
  split
  · rename_i hlow
    have hsub : (a : Int) - (a / d : Nat) * d = (a % d : Nat) := by
      linarith [mul_comm (d : Int) (a / d : Nat)]
    rw [hsub, abs_of_nonneg (by omega)]
    omega
  · rename_i hhigh
    have hsub : (a : Int) - (a / d + 1 : Nat) * d = (a % d : Nat) - d := by
      push_cast at hdiv ⊢
      linarith [mul_comm (d : Int) (a / d : Nat)]
    rw [hsub, abs_of_nonpos (by omega)]
    omega

/-- No multiple of `d` is nearer to `a` than that of the rounded quotient. -/
theorem divNearest_nearest (a : Nat) {d : Nat} (hd : 0 < d) (k : Int) :
    |(a : Int) - divNearest a d * d| ≤ |(a : Int) - k * d| := by
  have hhalf := two_mul_abs_sub_divNearest_le a hd
  by_cases hk : k = divNearest a d
  · rw [hk]
  · have hstep : (d : Int) ≤ |(divNearest a d - k) * d| := by
      rw [abs_mul, Nat.abs_cast]
      exact le_mul_of_one_le_left (by omega) (Int.one_le_abs (by omega))
    have htriangle : |(divNearest a d - k) * (d : Int)| ≤
        |(a : Int) - k * d| + |(a : Int) - divNearest a d * d| := by
      have hsplit : (divNearest a d - k) * (d : Int) =
          ((a : Int) - k * d) - ((a : Int) - divNearest a d * d) := by ring
      rw [hsplit]
      exact abs_sub _ _
    linarith

theorem le_divNearest {a d c : Nat} (hd : 0 < d) (h : c * d ≤ a) : c ≤ divNearest a d := by
  have hdiv : c ≤ a / d := (Nat.le_div_iff_mul_le hd).mpr h
  rw [divNearest]
  split <;> omega

theorem divNearest_le {a d c : Nat} (hd : 0 < d) (h : a < c * d) : divNearest a d ≤ c := by
  have hdiv : a / d < c := (Nat.div_lt_iff_lt_mul hd).mpr h
  rw [divNearest]
  split <;> omega

/-- An even number is reached from one half below it. -/
theorem le_divNearest_iff {a d c : Nat} (hd : 0 < d) (heven : c % 2 = 0) :
    c ≤ divNearest a d ↔ 2 * c * d ≤ 2 * a + d := by
  have hmod := Nat.mod_lt a hd
  have hdiv := Nat.div_add_mod a d
  rcases Nat.lt_trichotomy (a / d + 1) c with hlt | heq | hgt
  · have hmul : d * (a / d + 1 + 1) ≤ d * c := Nat.mul_le_mul_left d hlt
    have hle : divNearest a d ≤ a / d + 1 := by
      rw [divNearest]
      split <;> omega
    apply iff_of_false (by omega)
    rw [Nat.mul_assoc, Nat.mul_comm c d]
    rw [Nat.mul_add, Nat.mul_add] at hmul
    omega
  · have hodd : a / d % 2 = 1 := by omega
    have hmul : 2 * c * d = 2 * (d * (a / d)) + 2 * d := by
      rw [← heq]
      ring
    rw [hmul]
    rw [divNearest]
    split <;> omega
  · have hmul : d * c ≤ d * (a / d) := Nat.mul_le_mul_left d (by omega)
    refine iff_of_true (le_divNearest hd ?_) ?_
    · rw [Nat.mul_comm]
      omega
    · rw [Nat.mul_assoc, Nat.mul_comm c d]
      omega

/-! ## Rounding -/

theorem significand_bounds {n : Nat} (hn : n ≠ 0) :
    2 ^ 52 ≤ significand n ∧ significand n ≤ 2 ^ 53 := by
  have hlow := Nat.log2_self_le hn
  have hhigh : n < 2 ^ (n.log2 + 1) := Nat.lt_log2_self
  constructor
  · apply le_divNearest (Nat.two_pow_pos _)
    rw [Nat.mul_comm]
    exact Nat.mul_le_mul_right _ hlow
  · apply divNearest_le (Nat.two_pow_pos _)
    rw [pow_succ] at hhigh
    omega

/-- The value of a significand added to an exponent field. -/
theorem unitsOf_add {e q : Nat} (hlow : 2 ^ 52 ≤ q) (hhigh : q ≤ 2 ^ 53) :
    unitsOf (e * 2 ^ 52 + q) = q * 2 ^ e := by
  have hbig : ¬ e * 2 ^ 52 + q < 2 ^ 52 := by omega
  rw [unitsOf, if_neg hbig]
  rcases Nat.lt_or_ge q (2 ^ 53) with hq | hq
  · have hdiv : (e * 2 ^ 52 + q) / 2 ^ 52 - 1 = e := by omega
    have hmod : 2 ^ 52 + (e * 2 ^ 52 + q) % 2 ^ 52 = q := by omega
    rw [hdiv, hmod]
  · have hdiv : (e * 2 ^ 52 + q) / 2 ^ 52 - 1 = e + 1 := by omega
    have hmod : 2 ^ 52 + (e * 2 ^ 52 + q) % 2 ^ 52 = 2 ^ 52 := by omega
    rw [hdiv, hmod, Nat.le_antisymm hhigh hq]
    ring

/-- A magnitude is a multiple of `2 ^ p`, or at most `2 ^ 52` times it. -/
theorem unitsOf_grid (m p : Nat) :
    (∃ k, unitsOf m = k * 2 ^ p) ∨ unitsOf m ≤ 2 ^ 52 * 2 ^ p := by
  rw [unitsOf]
  split
  · right
    exact Nat.le_trans (by omega) (Nat.le_mul_of_pos_right _ (Nat.two_pow_pos p))
  · rcases Nat.lt_or_ge (m / 2 ^ 52 - 1) p with hp | hp
    · right
      have hfrac : 2 ^ 52 + m % 2 ^ 52 ≤ 2 ^ 52 * 2 := by omega
      calc (2 ^ 52 + m % 2 ^ 52) * 2 ^ (m / 2 ^ 52 - 1)
          ≤ 2 ^ 52 * 2 * 2 ^ (m / 2 ^ 52 - 1) := Nat.mul_le_mul_right _ hfrac
        _ = 2 ^ 52 * 2 ^ (m / 2 ^ 52 - 1 + 1) := by rw [pow_succ]; ring
        _ ≤ 2 ^ 52 * 2 ^ p :=
            Nat.mul_le_mul_left _ (Nat.pow_le_pow_right (by decide) hp)
    · left
      refine ⟨(2 ^ 52 + m % 2 ^ 52) * 2 ^ (m / 2 ^ 52 - 1 - p), ?_⟩
      rw [Nat.mul_assoc, ← pow_add, Nat.sub_add_cancel hp]

theorem one_eq : one = 2 ^ 52 * 2 ^ 1022 := by
  rw [one, ← pow_add]

/-- A nearest multiple of `d` stays nearest among numbers which are multiples of
`d` or lie below one, in any unit. -/
theorem scaled_nearest {a d q c scale u : Int} (hscale : 0 ≤ scale) (hc : c * d ≤ a)
    (hnearest : ∀ k, |a - q * d| ≤ |a - k * d|)
    (hgrid : (∃ k, u = k * (d * scale)) ∨ u ≤ c * (d * scale)) :
    |a * scale - q * (d * scale)| ≤ |a * scale - u| := by
  have hfactor (k : Int) : |a * scale - k * (d * scale)| = |a - k * d| * scale := by
    rw [← mul_assoc, ← sub_mul, abs_mul, abs_of_nonneg hscale]
  have hle (k : Int) : |a - q * d| * scale ≤ |a - k * d| * scale :=
    mul_le_mul_of_nonneg_right (hnearest k) hscale
  rw [hfactor]
  rcases hgrid with ⟨k, rfl⟩ | hsmall
  · rw [hfactor]
    exact hle k
  · have hbelow : c * (d * scale) ≤ a * scale := by
      rw [← mul_assoc]
      exact mul_le_mul_of_nonneg_right hc hscale
    calc |a - q * d| * scale
        ≤ |a - c * d| * scale := hle c
      _ = a * scale - c * (d * scale) := by rw [← hfactor, abs_of_nonneg (by linarith)]
      _ ≤ a * scale - u := by linarith
      _ ≤ |a * scale - u| := le_abs_self _

/-- The signed values of the format lie on the grid of a larger exponent, or
below it. -/
theorem grid_of_natAbs {m p : Nat} {u : Int} (hu : u.natAbs = unitsOf m) :
    (∃ k : Int, u = k * 2 ^ p) ∨ u ≤ 2 ^ 52 * 2 ^ p := by
  rcases unitsOf_grid m p with ⟨k, hk⟩ | hsmall
  · left
    rcases Int.natAbs_eq u with hpos | hneg
    · exact ⟨k, by rw [hpos, hu, hk]; push_cast; ring⟩
    · exact ⟨-k, by rw [hneg, hu, hk]; push_cast; ring⟩
  · right
    have hle : (unitsOf m : Int) ≤ 2 ^ 52 * 2 ^ p := by exact_mod_cast hsmall
    omega

/-- The rounding of `n` is nearest to `n` among the values of the format. -/
theorem roundNat_nearest {n : Nat} (hfinite : roundNat n < infinity) (m : Nat) (u : Int)
    (hu : u.natAbs = unitsOf m) :
    |(n * one : Int) - unitsOf (roundNat n)| ≤ |(n * one : Int) - u| := by
  obtain rfl | hn := eq_or_ne n 0
  · have hzero : unitsOf (roundNat 0) = 0 := by decide
    rw [hzero, Nat.cast_zero, zero_mul, sub_zero, abs_zero]
    exact abs_nonneg _
  obtain ⟨hlow, hhigh⟩ := significand_bounds hn
  have hround : roundNat n = (n.log2 + 1022) * 2 ^ 52 + significand n := by
    rw [roundNat] at hfinite ⊢
    rw [if_neg hn] at hfinite ⊢
    omega
  have hlog : (2 : Int) ^ n.log2 ≤ n := by exact_mod_cast Nat.log2_self_le hn
  have hnearest := divNearest_nearest (n * 2 ^ 52) (Nat.two_pow_pos n.log2)
  have hgrid := grid_of_natAbs (p := n.log2 + 1022) hu
  rw [hround, unitsOf_add hlow hhigh, pow_add, one_eq]
  rw [pow_add] at hgrid
  change ∀ k : Int, |_ - (significand n : Int) * _| ≤ _ at hnearest
  simp only [Nat.cast_mul, Nat.cast_pow, Nat.cast_ofNat] at hnearest ⊢
  have h := scaled_nearest (pow_nonneg (by decide) 1022) (by linarith) hnearest hgrid
  rwa [mul_assoc] at h

/-- The rounding of `n` units is nearest to `n` among the values of the format. -/
theorem roundUnits_nearest {n : Nat} (hfinite : roundUnits n < infinity) (m : Nat) (u : Int)
    (hu : u.natAbs = unitsOf m) :
    |(n : Int) - unitsOf (roundUnits n)| ≤ |(n : Int) - u| := by
  rcases Nat.lt_or_ge n (2 ^ 53) with hsmall | hlarge
  · have hexact : unitsOf (roundUnits n) = n := by
      rw [roundUnits, if_pos hsmall, unitsOf]
      split
      · rfl
      · have hfield : n / 2 ^ 52 - 1 = 0 := by omega
        rw [hfield]
        omega
    rw [hexact, sub_self, abs_zero]
    exact abs_nonneg _
  · have hn : n ≠ 0 := by omega
    obtain ⟨e, he⟩ : ∃ e, n.log2 = 52 + e :=
      Nat.exists_eq_add_of_le ((Nat.le_log2 hn).mpr (by omega))
    have hround : roundUnits n = e * 2 ^ 52 + divNearest n (2 ^ e) := by
      rw [roundUnits, if_neg (Nat.not_lt.mpr hlarge), he, Nat.add_sub_cancel_left] at hfinite ⊢
      omega
    have hlow : 2 ^ 52 * 2 ^ e ≤ n := by
      rw [← pow_add]
      exact (Nat.le_log2 hn).mp (Nat.le_of_eq he.symm)
    have hhigh : n < 2 ^ 53 * 2 ^ e := by
      rw [← pow_add]
      exact (Nat.log2_lt hn).mp (by omega)
    have hnearest := divNearest_nearest n (Nat.two_pow_pos e)
    have hgrid := grid_of_natAbs (p := e) hu
    have hlow' : (2 : Int) ^ 52 * 2 ^ e ≤ n := by exact_mod_cast hlow
    rw [hround, unitsOf_add (le_divNearest (Nat.two_pow_pos e) hlow)
      (divNearest_le (Nat.two_pow_pos e) hhigh)]
    simp only [Nat.cast_mul, Nat.cast_pow, Nat.cast_ofNat] at hnearest ⊢
    rw [← one_mul (2 ^ e : Int), mul_comm (1 : Int)] at hgrid
    have h := scaled_nearest zero_le_one hlow' hnearest hgrid
    rwa [mul_one, mul_one] at h

theorem lt_of_log2_lt {n a b : Nat} (hn : n ≠ 0) (h : n.log2 < a + b) : n < 2 ^ a * 2 ^ b := by
  rw [← pow_add]
  exact (Nat.log2_lt hn).mp h

theorem le_of_le_log2 {n a b : Nat} (hn : n ≠ 0) (h : a + b ≤ n.log2) : 2 ^ a * 2 ^ b ≤ n := by
  rw [← pow_add]
  exact (Nat.le_log2 hn).mp h

/-- Rounding overflows from `overflow` on. -/
theorem roundNat_lt_infinity_iff (n : Nat) : roundNat n < infinity ↔ n < overflow := by
  have hunit : 0 < 2 ^ 970 := pow_pos Nat.two_pos 970
  have hoverflow : overflow = (2 ^ 54 - 1) * 2 ^ 970 := by
    rw [overflow, show 1024 = 54 + 970 from rfl, pow_add, Nat.sub_mul, one_mul]
  have hinfinity : infinity = 2047 * 2 ^ 52 := rfl
  obtain rfl | hn := eq_or_ne n 0
  · apply iff_of_true (by decide)
    rw [hoverflow]
    omega
  obtain ⟨hlow, hhigh⟩ := significand_bounds hn
  have hround : roundNat n < infinity ↔ (n.log2 + 1022) * 2 ^ 52 + significand n < infinity := by
    rw [roundNat, if_neg hn]
    omega
  rw [hround, hoverflow, hinfinity]
  rcases Nat.lt_trichotomy n.log2 1023 with hlt | heq | hgt
  · apply iff_of_true (by omega)
    have hlog : n < 2 ^ 53 * 2 ^ 970 := lt_of_log2_lt hn hlt
    omega
  · have hsignificand : 2 ^ 53 ≤ significand n ↔
        2 * 2 ^ 53 * 2 ^ n.log2 ≤ 2 * (n * 2 ^ 52) + 2 ^ n.log2 :=
      le_divNearest_iff (Nat.two_pow_pos _) (by decide)
    rw [heq, show 1023 = 53 + 970 from rfl, pow_add] at hsignificand
    omega
  · apply iff_of_false (by omega)
    have hlog : 2 ^ 54 * 2 ^ 970 ≤ n := le_of_le_log2 hn hgt
    omega

/-! ## The nearest double -/

/-- `b` is `n` rounded to the format. -/
structure IsNearest (n : Int) (b : Binary64) : Prop where
  finite : n.natAbs < overflow → b.isFinite = true ∧
    ∀ c : Binary64, |n * one - b.units| ≤ |n * one - c.units|
  infinite : overflow ≤ n.natAbs → b.magnitude = infinity ∧ b.negative = decide (n < 0)

theorem natAbs_units (b : Binary64) : b.units.natAbs = unitsOf b.magnitude := by
  rw [units]
  split <;> omega

theorem roundNat_le_infinity (n : Nat) : roundNat n ≤ infinity := by
  rw [roundNat]
  split
  · exact Nat.zero_le _
  · exact Nat.min_le_right _ _

theorem ofInt_magnitude (n : Int) : (ofInt n).magnitude = roundNat n.natAbs :=
  make_magnitude _ (Nat.lt_of_le_of_lt (roundNat_le_infinity _) (by decide))

theorem ofInt_negative (n : Int) : (ofInt n).negative = decide (n < 0) :=
  make_negative _ (Nat.lt_of_le_of_lt (roundNat_le_infinity _) (by decide))

theorem ofInt_not_isNaN (n : Int) : (ofInt n).isNaN = false := by
  simp only [isNaN, ofInt_magnitude, decide_eq_false_iff_not, Nat.not_lt]
  exact roundNat_le_infinity _

/-- `ofInt` rounds to a nearest double. -/
theorem ofInt_isNearest (n : Int) : IsNearest n (ofInt n) := by
  refine ⟨?_, fun hlarge => ⟨?_, ofInt_negative n⟩⟩
  · intro hsmall
    have hfinite := (roundNat_lt_infinity_iff n.natAbs).mpr hsmall
    refine ⟨by simpa [isFinite, ofInt_magnitude] using hfinite, ?_⟩
    intro c
    rcases lt_or_ge n 0 with hn | hn
    · have hunits : (ofInt n).units = -(unitsOf (roundNat n.natAbs) : Int) := by
        simp [units, ofInt_negative, ofInt_magnitude, hn]
      have h := roundNat_nearest hfinite c.magnitude (-c.units) (by simp [natAbs_units])
      have habs : (n.natAbs : Int) = -n := by omega
      rw [habs, ← abs_neg, ← abs_neg (-n * _ - _)] at h
      rw [hunits]
      convert h using 2 <;> ring
    · have hunits : (ofInt n).units = unitsOf (roundNat n.natAbs) := by
        simp [units, ofInt_negative, ofInt_magnitude, Int.not_lt.mpr hn]
      have h := roundNat_nearest hfinite c.magnitude c.units (natAbs_units c)
      have habs : (n.natAbs : Int) = n := by omega
      rwa [habs, ← hunits] at h
  · have hinfinite := (roundNat_lt_infinity_iff n.natAbs).not.mpr (Nat.not_lt.mpr hlarge)
    rw [ofInt_magnitude]
    exact Nat.le_antisymm (roundNat_le_infinity _) (Nat.not_lt.mp hinfinite)

/-! ## Sums -/

theorem roundUnits_le_infinity (n : Nat) : roundUnits n ≤ infinity := by
  rw [roundUnits]
  split
  · exact Nat.le_of_lt (Nat.lt_of_lt_of_le ‹_› (by decide))
  · exact Nat.min_le_right _ _

theorem isNaN_of_isFinite {a : Binary64} (h : a.isFinite = true) : a.isNaN = false := by
  simp only [isFinite, isNaN, decide_eq_true_eq, decide_eq_false_iff_not] at h ⊢
  omega

/-- `add` rounds to a nearest double. -/
theorem add_nearest {a b : Binary64} (ha : a.isFinite = true) (hb : b.isFinite = true)
    (hsum : (add a b).isFinite = true) (c : Binary64) :
    |a.units + b.units - (add a b).units| ≤ |a.units + b.units - c.units| := by
  obtain ⟨n, hn⟩ : ∃ n, n = a.units + b.units := ⟨_, rfl⟩
  have hadd : add a b =
      make (n < 0 ∨ (n = 0 ∧ a.negative ∧ b.negative)) (roundUnits n.natAbs) := by
    rw [add, isNaN_of_isFinite ha, isNaN_of_isFinite hb, ha, hb, hn]
    rfl
  have hmagnitude : (add a b).magnitude = roundUnits n.natAbs := by
    rw [hadd]
    exact make_magnitude _ (Nat.lt_of_le_of_lt (roundUnits_le_infinity _) (by decide))
  have hnegative : (add a b).negative = decide (n < 0 ∨ (n = 0 ∧ a.negative ∧ b.negative)) := by
    rw [hadd]
    exact make_negative _ (Nat.lt_of_le_of_lt (roundUnits_le_infinity _) (by decide))
  have hfinite : roundUnits n.natAbs < infinity := by
    rw [← hmagnitude]
    simpa [isFinite] using hsum
  rw [← hn]
  rcases lt_trichotomy n 0 with hneg | hzero | hpos
  · have hunits : (add a b).units = -(unitsOf (roundUnits n.natAbs) : Int) := by
      rw [units, hnegative, hmagnitude, if_pos (by simp [hneg])]
    have h := roundUnits_nearest hfinite c.magnitude (-c.units) (by simp [natAbs_units])
    have habs : (n.natAbs : Int) = -n := by omega
    rw [habs, ← abs_neg, ← abs_neg (-n - -c.units)] at h
    rw [hunits]
    convert h using 2 <;> ring
  · have hunits : (add a b).units = 0 := by
      rw [units, hmagnitude, hzero]
      split <;> rfl
    rw [hunits, hzero, sub_zero, abs_zero]
    exact abs_nonneg _
  · have hunits : (add a b).units = unitsOf (roundUnits n.natAbs) := by
      rw [units, hnegative, hmagnitude, if_neg (by simp; omega)]
    have h := roundUnits_nearest hfinite c.magnitude c.units (natAbs_units c)
    have habs : (n.natAbs : Int) = n := by omega
    rwa [habs, ← hunits] at h

/-- What exceeds a rounded sum exceeds the sum. -/
theorem lt_of_add_lt {a b c : Binary64} (ha : a.isFinite = true) (hb : b.isFinite = true)
    (hsum : (add a b).isFinite = true) (h : lt (add a b) c = true) :
    a.units + b.units < c.units := by
  have hlt : (add a b).units < c.units := by
    simp only [lt, Bool.and_eq_true, decide_eq_true_eq] at h
    exact h.2
  have hnearest := add_nearest ha hb hsum c
  by_contra hge
  rw [abs_of_nonneg (by omega : 0 ≤ a.units + b.units - c.units)] at hnearest
  have := le_abs_self (a.units + b.units - (add a b).units)
  omega

end Binary64
