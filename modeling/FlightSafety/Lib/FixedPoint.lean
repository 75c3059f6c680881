/-
Rationals coded as whole multiples of a quantum.  The coding truncates toward
zero and must fit 32 bits; the decoding may go through a float of 24
significant bits.
-/
import Mathlib.Algebra.Order.Ring.Abs
import Mathlib.Tactic.Linarith
import Mathlib.Tactic.Ring
import FlightSafety.Lib.ExactDouble

namespace ExactDouble

/-- The whole part, toward zero. -/
def truncate (v : ℚ) : ℤ := v.num.tdiv v.den

/-- The whole part is an `int32_t`. -/
def FitsInt32 (v : ℚ) : Prop :=
  -2 ^ 31 ≤ truncate v ∧ truncate v < 2 ^ 31

instance (v : ℚ) : Decidable (FitsInt32 v) :=
  inferInstanceAs (Decidable (_ ∧ _))

/-! Truncation. -/

@[simp] theorem truncate_intCast (n : ℤ) : truncate n = n := by
  simp [truncate]

/-- The fraction that truncation drops. -/
theorem sub_truncate (v : ℚ) :
    v - truncate v = (v.num.tmod v.den : ℚ) / v.den := by
  have hden : (v.den : ℚ) ≠ 0 := Nat.cast_ne_zero.mpr v.den_nz
  have hsplit := congrArg (Int.cast (R := ℚ)) (Int.mul_tdiv_add_tmod v.num v.den)
  push_cast at hsplit
  rw [eq_div_iff hden, sub_mul, Rat.mul_den_eq_num, truncate]
  linarith

theorem abs_sub_truncate_lt (v : ℚ) : |v - truncate v| < 1 := by
  have hden : (0 : ℚ) < v.den := Nat.cast_pos.mpr v.den_pos
  have hdenInt : (0 : ℤ) < v.den := Nat.cast_pos.mpr v.den_pos
  rw [sub_truncate, abs_lt, lt_div_iff₀ hden, div_lt_iff₀ hden, one_mul,
    neg_one_mul]
  constructor
  · exact_mod_cast Int.lt_tmod_of_pos v.num hdenInt
  · exact_mod_cast Int.tmod_lt_of_pos v.num hdenInt

theorem truncate_neg (v : ℚ) : truncate (-v) = -truncate v := by
  rw [truncate, Rat.num_neg_eq_neg_num, Rat.den_neg_eq_den, Int.neg_tdiv,
    truncate]

theorem truncate_nonneg {v : ℚ} (h : 0 ≤ v) : 0 ≤ truncate v :=
  Int.tdiv_nonneg (Rat.num_nonneg.mpr h) (Int.natCast_nonneg _)

theorem truncate_le {v : ℚ} (h : 0 ≤ v) : (truncate v : ℚ) ≤ v := by
  rw [← sub_nonneg, sub_truncate]
  apply div_nonneg _ (Nat.cast_nonneg _)
  exact_mod_cast Int.tmod_nonneg _ (Rat.num_nonneg.mpr h)

theorem abs_truncate_le (v : ℚ) : |(truncate v : ℚ)| ≤ |v| := by
  rcases le_total 0 v with hpos | hneg
  · rw [abs_of_nonneg (Int.cast_nonneg (truncate_nonneg hpos)),
      abs_of_nonneg hpos]
    exact truncate_le hpos
  · have hopposite : 0 ≤ -v := neg_nonneg.mpr hneg
    have hle := truncate_le hopposite
    have htruncated : (0 : ℚ) ≤ truncate (-v) :=
      Int.cast_nonneg (truncate_nonneg hopposite)
    rw [truncate_neg, Int.cast_neg] at hle htruncated
    rw [abs_of_nonpos (neg_nonneg.mp htruncated), abs_of_nonpos hneg]
    exact hle

/-- Truncation does not change sides. -/
theorem mul_truncate_nonneg (v : ℚ) : 0 ≤ v * truncate v := by
  rcases le_total 0 v with hpos | hneg
  · exact mul_nonneg hpos (Int.cast_nonneg (truncate_nonneg hpos))
  · have htruncated : (0 : ℚ) ≤ truncate (-v) :=
      Int.cast_nonneg (truncate_nonneg (neg_nonneg.mpr hneg))
    rw [truncate_neg, Int.cast_neg] at htruncated
    exact mul_nonneg_of_nonpos_of_nonpos hneg (neg_nonneg.mp htruncated)

theorem nonneg_of_truncate_pos {v : ℚ} (h : 0 < truncate v) : 0 ≤ v := by
  by_contra hneg
  have hopposite : 0 ≤ truncate (-v) :=
    truncate_nonneg (neg_nonneg.mpr (le_of_not_ge hneg))
  rw [truncate_neg] at hopposite
  omega

theorem truncate_pos_iff (v : ℚ) : 0 < truncate v ↔ 1 ≤ v := by
  constructor
  · intro hpos
    have hone : ((1 : ℤ) : ℚ) ≤ truncate v := Int.cast_le.mpr hpos
    rw [Int.cast_one] at hone
    exact hone.trans (truncate_le (nonneg_of_truncate_pos hpos))
  · intro hone
    have hnear := (abs_lt.mp (abs_sub_truncate_lt v)).2
    have hpos : ((0 : ℤ) : ℚ) < truncate v := by
      push_cast
      linarith
    exact_mod_cast hpos

theorem truncate_neg_iff (v : ℚ) : truncate v < 0 ↔ v ≤ -1 := by
  have hopposite := truncate_pos_iff (-v)
  rw [truncate_neg, Left.neg_pos_iff] at hopposite
  rw [hopposite, le_neg]

/-! The conversion to `int32_t`. -/

/-- A number that is not negative is the same without a sign. -/
theorem toNat_toUInt32_of_nonneg {n : Int32} (h : 0 ≤ n.toInt) :
    (n.toUInt32.toNat : ℤ) = n.toInt := by
  rw [Int32.toNat_toUInt32_of_le (Int32.le_iff_toInt_le.mpr h)]
  exact Int.toNat_of_nonneg h

/-- Without a sign only zero is zero. -/
theorem toNat_toUInt32_pos {n : Int32} (h : n.toInt ≠ 0) :
    0 < n.toUInt32.toNat := by
  apply Nat.pos_of_ne_zero
  intro hzero
  have hword : n.toUInt32 = 0 := UInt32.toNat_inj.mp hzero
  have hsigned := congrArg UInt32.toInt32 hword
  rw [Int32.toInt32_toUInt32] at hsigned
  exact h (congrArg Int32.toInt hsigned)

theorem toInt_toInt32 [Target] {v : ℚ} (h : FitsInt32 v) :
    (Double.finite v).toInt32.toInt = truncate v := by
  have hsome : (Double.finite v).toInt32? =
      some (Int32.ofInt (truncate v)) := if_pos h
  rw [Double.toInt32, hsome, Option.getD_some]
  exact Int32.toInt_ofInt_of_le h.1 h.2

/-- A value whose whole part is large is at least one above what is
smaller. -/
theorem one_le_sub_of_lt_truncate {v : ℚ} {n : ℤ} (hpos : 0 < truncate v)
    (h : n < truncate v) : 1 ≤ v - n := by
  have hle := truncate_le (nonneg_of_truncate_pos hpos)
  have hnext : ((n + 1 : ℤ) : ℚ) ≤ truncate v := Int.cast_le.mpr h
  push_cast at hnext
  linarith

/-- Where the whole part does not fit, every `int32_t` is at least one away. -/
theorem one_le_abs_sub {v : ℚ} (h : ¬ FitsInt32 v) (n : Int32) :
    1 ≤ |v - n.toInt| := by
  have hlow := n.le_toInt
  have hhigh := n.toInt_lt
  rcases not_and_or.mp h with hsmall | hlarge
  · have hopposite : -n.toInt < truncate (-v) := by
      rw [truncate_neg]
      omega
    have hfar := one_le_sub_of_lt_truncate (by rw [truncate_neg]; omega)
      hopposite
    push_cast at hfar
    rw [abs_sub_comm]
    exact le_trans (by linarith) (le_abs_self _)
  · have hfar : 1 ≤ v - n.toInt :=
      one_le_sub_of_lt_truncate (by omega) (by omega)
    exact le_trans hfar (le_abs_self _)

/-! Rounding to a float. -/

/-- The distance between neighbouring floats of a magnitude. -/
def floatSpacing (magnitude : ℕ) : ℕ := 2 ^ (Nat.log 2 magnitude - 23)

theorem floatSpacing_pos (magnitude : ℕ) : 0 < floatSpacing magnitude :=
  Nat.two_pow_pos _

/-- Beyond the middle between two floats, or on it with an odd one below. -/
def RoundsUp (magnitude : ℕ) : Prop :=
  floatSpacing magnitude / 2 < magnitude % floatSpacing magnitude ∨
    (magnitude % floatSpacing magnitude = floatSpacing magnitude / 2 ∧
      0 < magnitude % floatSpacing magnitude ∧
      magnitude / floatSpacing magnitude % 2 = 1)

instance (magnitude : ℕ) : Decidable (RoundsUp magnitude) :=
  inferInstanceAs (Decidable (_ ∨ _))

/-- The one of the two floats around a magnitude that it is rounded to. -/
def nearestFloat (magnitude : ℕ) : ℕ :=
  (if RoundsUp magnitude then magnitude / floatSpacing magnitude + 1
    else magnitude / floatSpacing magnitude) * floatSpacing magnitude

theorem roundToFloat_neg (n : ℤ) : roundToFloat (-n) = -roundToFloat n := by
  simp only [roundToFloat, Int.natAbs_neg, Int.sign_neg, Int.neg_mul]

theorem roundToFloat_natCast (magnitude : ℕ) :
    roundToFloat magnitude = nearestFloat magnitude := by
  rcases Nat.eq_zero_or_pos magnitude with rfl | hpos
  · rfl
  · have hsign : Int.sign (magnitude : ℤ) = 1 :=
      Int.sign_eq_one_of_pos (Int.natCast_pos.mpr hpos)
    simp only [roundToFloat, Int.natAbs_natCast, hsign, Int.one_mul]
    rfl

/-- How far rounding moves a magnitude. -/
def roundingStep (magnitude : ℕ) : ℤ :=
  if RoundsUp magnitude then
    floatSpacing magnitude - (magnitude % floatSpacing magnitude : ℕ)
  else -(magnitude % floatSpacing magnitude : ℕ)

theorem roundToFloat_eq_add (magnitude : ℕ) :
    roundToFloat magnitude = magnitude + roundingStep magnitude := by
  have hsplit := Nat.div_add_mod' magnitude (floatSpacing magnitude)
  rw [roundToFloat_natCast, nearestFloat, roundingStep]
  split
  · rw [Nat.add_mul, Nat.one_mul]
    omega
  · omega

/-- An integer is a float itself. -/
def IsFloat (n : ℤ) : Prop :=
  n.natAbs % floatSpacing n.natAbs = 0

instance (n : ℤ) : Decidable (IsFloat n) :=
  inferInstanceAs (Decidable (_ = _))

theorem roundingStep_eq_zero_iff (magnitude : ℕ) :
    roundingStep magnitude = 0 ↔ magnitude % floatSpacing magnitude = 0 := by
  have hlt := Nat.mod_lt magnitude (floatSpacing_pos magnitude)
  unfold roundingStep
  constructor
  · intro hstep
    split at hstep
    next => omega
    next => omega
  · intro hzero
    have hdown : ¬ RoundsUp magnitude := by
      unfold RoundsUp
      omega
    rw [if_neg hdown, hzero]
    rfl

theorem roundToFloat_eq_self_iff (n : ℤ) : roundToFloat n = n ↔ IsFloat n := by
  have hnat (magnitude : ℕ) :
      roundToFloat magnitude = magnitude ↔ IsFloat magnitude := by
    rw [roundToFloat_eq_add, IsFloat, Int.natAbs_natCast,
      ← roundingStep_eq_zero_iff]
    omega
  rcases Int.natAbs_eq n with hpos | hneg
  · rw [hpos]
    exact hnat n.natAbs
  · rw [hneg, roundToFloat_neg, neg_inj, hnat, IsFloat, IsFloat, Int.natAbs_neg]

/-! Multiplying by a float. -/

section Product

variable {significand : ℕ}

/-- How far the two roundings of a product move it, of the factor and of the
product itself. -/
def productStep (significand magnitude : ℕ) : ℤ :=
  roundingStep magnitude * significand +
    roundingStep (nearestFloat magnitude * significand)

/-- The whole part, multiplied by a float, is at most one from the value: the
roundings take it no further down than the fraction that was dropped leaves
to one, and no further up than that fraction and one. -/
def KeptByProduct (significand : ℕ) (v : ℚ) : Prop :=
  let magnitude := (truncate v).natAbs
  let fraction := |v| - magnitude
  (fraction - 1) * significand ≤ productStep significand magnitude ∧
    productStep significand magnitude ≤ (fraction + 1) * significand

instance (v : ℚ) : Decidable (KeptByProduct significand v) :=
  inferInstanceAs (Decidable (_ ∧ _))

theorem floatProduct_neg (n significand : ℤ) :
    floatProduct (-n) significand = -floatProduct n significand := by
  rw [floatProduct, roundToFloat_neg, Int.neg_mul, roundToFloat_neg,
    floatProduct]

theorem floatProduct_natCast (magnitude significand : ℕ) :
    floatProduct magnitude significand =
      magnitude * significand + productStep significand magnitude := by
  have hproduct : floatProduct magnitude significand =
      (nearestFloat magnitude * significand : ℕ) +
        roundingStep (nearestFloat magnitude * significand) := by
    rw [floatProduct, roundToFloat_natCast, ← Int.natCast_mul,
      roundToFloat_eq_add]
  have hnearest : (nearestFloat magnitude : ℤ) =
      magnitude + roundingStep magnitude := by
    rw [← roundToFloat_natCast, roundToFloat_eq_add]
  rw [hproduct, productStep, Int.natCast_mul, hnearest]
  ring

theorem keptByProduct_neg (v : ℚ) :
    KeptByProduct significand (-v) ↔ KeptByProduct significand v := by
  simp only [KeptByProduct, truncate_neg, Int.natAbs_neg, abs_neg]

/-- A value is at most one away from its whole part multiplied by a float
exactly if that product keeps it. -/
theorem abs_sub_floatProduct_le_iff (v : ℚ) :
    |v * significand - floatProduct (truncate v) significand| ≤ significand ↔
      KeptByProduct significand v := by
  have hnonneg : ∀ {v : ℚ}, 0 ≤ v →
      (|v * significand - floatProduct (truncate v) significand| ≤
        significand ↔ KeptByProduct significand v) := by
    intro v hv
    obtain ⟨magnitude, hmagnitude⟩ :=
      Int.eq_ofNat_of_zero_le (truncate_nonneg hv)
    have hproduct : (floatProduct (truncate v) significand : ℚ) =
        magnitude * significand + productStep significand magnitude := by
      rw [hmagnitude, floatProduct_natCast]
      push_cast
      rfl
    simp only [KeptByProduct, hmagnitude, Int.natAbs_natCast, abs_of_nonneg hv]
    rw [← hmagnitude, hproduct, abs_le]
    constructor
    · rintro ⟨hup, hdown⟩
      constructor <;> linarith
    · rintro ⟨hdown, hup⟩
      constructor <;> linarith
  rcases le_total 0 v with hv | hv
  · exact hnonneg hv
  · have hopposite := hnonneg (neg_nonneg.mpr hv)
    rw [truncate_neg, floatProduct_neg, keptByProduct_neg] at hopposite
    rw [← hopposite, ← abs_neg]
    push_cast
    rw [neg_mul, neg_sub_neg, neg_sub]

end Product

/-! Coding as multiples of a quantum. -/

section Quantum

variable {quantum : ℚ}

theorem abs_sub_mul (hquantum : 0 < quantum) (v : ℚ) (n : ℤ) :
    |v - n * quantum| = |v / quantum - n| * quantum := by
  rw [← abs_of_pos hquantum, ← abs_mul, abs_of_pos hquantum, sub_mul,
    div_mul_cancel₀ _ (ne_of_gt hquantum)]

/-- A value is coded to within a quantum exactly if its multiple fits,
whatever the machine makes of one that does not. -/
theorem abs_sub_coded_lt_iff [Target] (hquantum : 0 < quantum) (v : ℚ) :
    |v - (((Double.finite v).div quantum).toInt32.toInt : ℚ) * quantum| <
      quantum ↔ FitsInt32 (v / quantum) := by
  rw [abs_sub_mul hquantum, mul_lt_iff_lt_one_left hquantum]
  constructor
  · intro hlt
    by_contra hfits
    exact absurd (one_le_abs_sub hfits _) (not_le.mpr hlt)
  · intro hfits
    rw [Double.div, toInt_toInt32 hfits]
    exact abs_sub_truncate_lt _

/-- A multiple that fits is coded as itself. -/
theorem toInt32_mul_div [Target] (hquantum : 0 < quantum) (n : Int32) :
    ((Double.finite (n.toInt * quantum)).div quantum).toInt32 = n := by
  have hfits : FitsInt32 (n.toInt : ℚ) := by
    rw [FitsInt32, truncate_intCast]
    exact ⟨n.le_toInt, n.toInt_lt⟩
  rw [Double.div, mul_div_cancel_right₀ _ (ne_of_gt hquantum),
    ← Int32.toInt_inj, toInt_toInt32 hfits, truncate_intCast]

/-- A value whose multiple fits comes back from a multiplication by a float
to within a quantum exactly if that product keeps it. -/
theorem abs_sub_multiplied_le_iff [Target] {significand : ℕ} {place : ℚ}
    (hplace : 0 < place) (hquantum : quantum = significand * place)
    (hpositive : 0 < quantum) {v : ℚ} (hfits : FitsInt32 (v / quantum)) :
    |v - floatProduct ((Double.finite v).div quantum).toInt32.toInt significand *
      place| ≤ quantum ↔ KeptByProduct significand (v / quantum) := by
  have hscaled : v = v / quantum * significand * place := by
    rw [mul_assoc, ← hquantum, div_mul_cancel₀ _ (ne_of_gt hpositive)]
  have hquanta : |v - floatProduct (truncate (v / quantum)) significand *
      place| = |v / quantum * significand -
        floatProduct (truncate (v / quantum)) significand| * place := by
    rw [← abs_of_pos hplace, ← abs_mul, abs_of_pos hplace, sub_mul, ← hscaled]
  rw [Double.div, toInt_toInt32 hfits, hquanta, hquantum,
    mul_le_mul_iff_left₀ hplace, ← hquantum, abs_sub_floatProduct_le_iff]

end Quantum

end ExactDouble
