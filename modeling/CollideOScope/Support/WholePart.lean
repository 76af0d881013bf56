import CollideOScope.Support.Rounding

/-!
# Whole parts of binary floating-point values

`floor`, `ceil`, `round` and `fract` of a word, and the saturating conversion
to an unsigned integer.  Infinities and nans are their own whole parts.
-/

namespace CollideOScope.F32

open Nat

/-- `f32::floor`; a zero keeps its sign. -/
def floor (a : F32) : F32 :=
  if !a.isFinite || a.value = 0 then a else round (a.value / scale * scale)

def ceil (a : F32) : F32 := -(-a).floor

def trunc (a : F32) : F32 := if a.isNegative then a.ceil else a.floor

def fract (a : F32) : F32 := a - a.trunc

/-- `f32::round`: halves are rounded away from zero. -/
def roundHalfAway (a : F32) : F32 :=
  if a.isFinite then
    ofMagnitude a.isNegative (roundMagnitude ((units a.magnitude + scale / 2) / scale * scale) 1)
  else a

/-- `n as f32`. -/
def ofNat (n : ℕ) : F32 := round ((n : ℤ) * scale)

/-- `a as u32` and `a as usize`, with the largest value of the type. -/
def toNat (limit : ℕ) (a : F32) : ℕ :=
  if a.isNan || a.isNegative then 0
  else if a.isFinite then Nat.min limit (units a.magnitude / scale)
  else limit

/-- `if value.is_finite() { value } else { fallback }`. -/
def finiteOr (a fallback : F32) : F32 := if a.isFinite then a else fallback

variable {a : F32} {low high : ℕ} (limit : ℕ)

theorem isFinite_finiteOr {fallback : F32} (h : fallback.isFinite) :
    (a.finiteOr fallback).isFinite := by
  rw [finiteOr]
  split
  · next ha => exact ha
  · exact h

theorem scale_pos : 0 < scale := by
  rw [scale]
  positivity

theorem value_round_mul_scale {n : ℤ} (h : n.natAbs < 2 ^ 24) :
    (round (n * scale)).isFinite ∧ (round (n * scale)).value = n * scale := by
  have hscale : (scale : ℤ) = 2 ^ 149 := by
    rw [scale]
    norm_num
  have hsize : (n * scale).natAbs < 2 ^ (149 + 24) := by
    rw [Int.natAbs_mul, Int.natAbs_natCast, scale, pow_add, Nat.mul_comm]
    exact mul_lt_mul_of_pos_left h (by positivity)
  refine ⟨(round_within (m := 0x4b800000) (by decide) ?_).1, ?_⟩
  · refine hsize.le.trans (by decide +kernel)
  · refine value_round (k := 149) ?_ hsize (by norm_num)
    rw [hscale]
    exact Int.dvd_mul_left _ _

theorem toNat_within (hfin : a.isFinite) (hlow : (low : ℤ) * scale ≤ a.value)
    (hhigh : a.value ≤ (high : ℤ) * scale) (hlim : low ≤ limit) :
    low ≤ a.toNat limit ∧ a.toNat limit ≤ high := by
  have hscale := scale_pos
  rw [toNat, isNan_of_isFinite hfin, hfin]
  cases hsign : a.isNegative with
  | true =>
    have hval : a.value ≤ 0 := by
      rw [value, if_pos hsign]
      omega
    have hzero : low = 0 := by
      by_contra hpos
      have hmul : 0 < low * scale := mul_pos (by omega) hscale
      zify at hmul
      omega
    simp [hzero]
  | false =>
    have hval : a.value = units a.magnitude := by
      rw [value, hsign]
      rfl
    rw [hval] at hlow hhigh
    have hlow' : low ≤ units a.magnitude / scale :=
      (Nat.le_div_iff_mul_le hscale).mpr (by exact_mod_cast hlow)
    have hhigh' : units a.magnitude / scale ≤ high := by
      refine Nat.div_le_of_le_mul ?_
      rw [Nat.mul_comm]
      exact_mod_cast hhigh
    simp only [Bool.or_self, Bool.false_eq_true, if_false, if_true]
    exact ⟨le_min hlim hlow', (min_le_right _ _).trans hhigh'⟩

theorem value_floor (hfin : a.isFinite) (hsmall : (a.value / scale).natAbs < 2 ^ 24) :
    a.floor.isFinite ∧ a.floor.value = a.value / scale * scale := by
  rw [floor, hfin]
  split
  · next hzero =>
      have hval : a.value = 0 := by simpa using hzero
      refine ⟨hfin, ?_⟩
      simp [hval]
  · exact value_round_mul_scale hsmall

theorem value_ceil (hfin : a.isFinite) (hsmall : (-a.value / scale).natAbs < 2 ^ 24) :
    a.ceil.isFinite ∧ a.ceil.value = -(-a.value / scale) * scale := by
  obtain ⟨hfloor, hval⟩ := value_floor (a := -a) ((isFinite_neg a).trans hfin) (by rwa [value_neg])
  rw [ceil, isFinite_neg, value_neg, hval, value_neg]
  exact ⟨hfloor, (Int.neg_mul _ _).symm⟩

theorem toNat_wholePart_le (hfinite : a.isFinite) (hlow : 0 ≤ a.value)
    (hhigh : a.value ≤ (high : ℤ) * scale) (hsmall : high < 2 ^ 24) :
    a.floor.toNat limit ≤ high ∧ a.ceil.toNat limit ≤ high := by
  have hscale : (0 : ℤ) < scale := by exact_mod_cast scale_pos
  have hfloor : a.value / scale ≤ high := by refine Int.ediv_le_of_le_mul hscale hhigh
  have hfloor' : 0 ≤ a.value / scale := Int.ediv_nonneg hlow hscale.le
  have hceil : -(high : ℤ) ≤ -a.value / scale := by
    refine (Int.le_ediv_iff_mul_le hscale).mpr ?_
    linarith
  have hceil' : -a.value / scale ≤ 0 := by
    refine Int.ediv_le_of_le_mul hscale ?_
    linarith
  obtain ⟨hfin, hval⟩ := value_floor hfinite (by omega)
  obtain ⟨hfin', hval'⟩ := value_ceil hfinite (by omega)
  have hzero : ((0 : ℕ) : ℤ) * scale ≤ a.floor.value := by
    rw [hval]
    simpa using mul_nonneg hfloor' hscale.le
  have hzero' : ((0 : ℕ) : ℤ) * scale ≤ a.ceil.value := by
    rw [hval']
    simpa using mul_nonneg (neg_nonneg.mpr hceil') hscale.le
  constructor
  · refine (toNat_within limit hfin hzero ?_ (zero_le _)).2
    rw [hval]
    exact mul_le_mul_of_nonneg_right hfloor hscale.le
  · refine (toNat_within limit hfin' hzero' ?_ (zero_le _)).2
    rw [hval']
    exact mul_le_mul_of_nonneg_right (by linarith) hscale.le

theorem isNan_roundHalfAway (h : a.isFinite) : a.roundHalfAway.isNan = false := by
  rw [roundHalfAway, if_pos h, isNan, magnitude_ofMagnitude]
  · have hle := roundMagnitude_le_infinite ((units a.magnitude + scale / 2) / scale * scale) 1
    simpa [infinite] using hle
  · exact (roundMagnitude_le_infinite _ _).trans_lt (by decide)

theorem clamp_within {v floor ceiling : F32} (h : v.isNan = false)
    (hrng : isRange floor floor ceiling) :
    (v.clamp floor ceiling).isFinite ∧
      floor.value ≤ (v.clamp floor ceiling).value ∧
      (v.clamp floor ceiling).value ≤ ceiling.value := by
  simp only [isRange, Bool.and_eq_true] at hrng
  obtain ⟨⟨⟨hfloor, hceiling⟩, -⟩, hord⟩ := hrng
  have hordered := value_le_of_le hord
  rcases clamp_cases v floor ceiling h (isNan_of_isFinite hfloor)
    (isNan_of_isFinite hceiling) with heq | heq | ⟨heq, hbelow, habove⟩
  · rw [heq]
    exact ⟨hfloor, le_rfl, hordered⟩
  · rw [heq]
    exact ⟨hceiling, hordered, le_rfl⟩
  · rw [heq]
    exact ⟨isFinite_of_le hfloor hceiling hbelow habove,
      value_le_of_le hbelow, value_le_of_le habove⟩

end CollideOScope.F32
