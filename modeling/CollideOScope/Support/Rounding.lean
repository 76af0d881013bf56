import Mathlib.Data.Nat.Log
import Mathlib.Tactic.Linarith
import CollideOScope.Support.Binary32

/-!
# Single-precision arithmetic

Every finite value is a whole number of units of the least positive one, so
sums, differences and remainders of finite values are exact integers that are
rounded once, to the nearest value and to the even one of two.
-/

namespace CollideOScope.F32

open Nat

/-- The number of binades above the least normal one. -/
def binade (magnitude : ℕ) : ℕ := magnitude / 2 ^ 23 - 1

/-- The size of a magnitude in units of the least positive value. -/
def units (magnitude : ℕ) : ℕ := (magnitude - binade magnitude * 2 ^ 23) * 2 ^ binade magnitude

def infinite : ℕ := 0x7f800000

theorem significand_lt (m : ℕ) : m - binade m * 2 ^ 23 < 2 ^ 24 := by
  simp only [binade]
  omega

theorem le_significand {m : ℕ} (h : 0 < binade m) : 2 ^ 23 ≤ m - binade m * 2 ^ 23 := by
  simp only [binade] at h ⊢
  omega

theorem units_lt (m : ℕ) : units m < 2 ^ (binade m + 24) := by
  have h := significand_lt m
  rw [units, pow_add, mul_comm (2 ^ binade m)]
  exact Nat.mul_lt_mul_of_pos_right h (Nat.two_pow_pos _)

theorem le_units {m : ℕ} (h : 0 < binade m) : 2 ^ (binade m + 23) ≤ units m := by
  rw [units, pow_add, mul_comm (2 ^ binade m)]
  exact mul_le_mul_right _ (le_significand h)

theorem units_mono {m m' : ℕ} (h : m ≤ m') : units m ≤ units m' := by
  have hbinade : binade m ≤ binade m' := by
    simp only [binade]
    omega
  rcases hbinade.eq_or_lt with heq | hlt
  · simp only [units, heq]
    exact Nat.mul_le_mul_right _ (Nat.sub_le_sub_right h _)
  · have hstep : binade m + 24 ≤ binade m' + 23 := by omega
    calc
      units m ≤ 2 ^ (binade m + 24) := (units_lt m).le
      _ ≤ 2 ^ (binade m' + 23) := Nat.pow_le_pow_right two_pos hstep
      _ ≤ units m' := le_units (by omega)

theorem dvd_units {m k : ℕ} (h : 2 ^ (k + 23) ≤ units m) : 2 ^ k ∣ units m := by
  have hlt := (Nat.pow_lt_pow_iff_right one_lt_two).mp (h.trans_lt (units_lt m))
  exact Dvd.dvd.mul_left (pow_dvd_pow 2 (by omega)) _

/-- The whole number nearest to `n / d`, the even one of two. -/
def roundHalfEven (n d : ℕ) : ℕ :=
  if 2 * (n % d) < d then n / d
  else if d < 2 * (n % d) then n / d + 1
  else n / d + n / d % 2

/-- The magnitude nearest to `n / d` units. -/
def roundMagnitude (n d : ℕ) : ℕ :=
  let shift := log2 (n / d) - 23
  min (shift * 2 ^ 23 + roundHalfEven n (d * 2 ^ shift)) infinite

theorem roundHalfEven_of_dvd {n d : ℕ} (hd : 0 < d) (h : d ∣ n) : roundHalfEven n d = n / d := by
  simp [roundHalfEven, mod_eq_zero_of_dvd h, hd]

theorem roundHalfEven_mono {n n' d : ℕ} (h : n ≤ n') : roundHalfEven n d ≤ roundHalfEven n' d := by
  have hdiv : n / d ≤ n' / d := Nat.div_le_div_right h
  have hn := div_add_mod n d
  have hn' := div_add_mod n' d
  rcases hdiv.eq_or_lt with heq | hlt
  · rw [heq] at hn
    simp only [roundHalfEven, heq]
    split_ifs <;> omega
  · simp only [roundHalfEven]
    split_ifs <;> omega

theorem le_roundHalfEven (n d : ℕ) : n / d ≤ roundHalfEven n d := by
  simp only [roundHalfEven]
  split_ifs <;> omega

theorem roundHalfEven_le (n d : ℕ) : roundHalfEven n d ≤ n / d + 1 := by
  simp only [roundHalfEven]
  split_ifs <;> omega

section

variable {n n' k m : ℕ}

/-- The binades by which a size exceeds a significand. -/
def excess (n : ℕ) : ℕ := log2 n - 23

theorem roundMagnitude_one (n : ℕ) :
    roundMagnitude n 1 = min (excess n * 2 ^ 23 + roundHalfEven n (2 ^ excess n)) infinite := by
  simp [roundMagnitude, excess]

theorem lt_of_excess (n : ℕ) : n < 2 ^ (excess n + 24) := by
  have hpow : 2 ^ (n.log2 + 1) ≤ 2 ^ (excess n + 24) :=
    Nat.pow_le_pow_right two_pos (by simp only [excess]; omega)
  exact lt_log2_self.trans_le hpow

theorem le_of_excess (h : 0 < excess n) : 2 ^ (excess n + 23) ≤ n := by
  have hne : n ≠ 0 := by
    rintro rfl
    simp [excess] at h
  have heq : excess n + 23 = n.log2 := by
    simp only [excess] at h ⊢
    omega
  rw [heq]
  exact log2_self_le hne

theorem excess_le (h : n < 2 ^ (k + 24)) : excess n ≤ k := by
  rcases Nat.eq_zero_or_pos (excess n) with hzero | hpos
  · omega
  · have hlt := (Nat.pow_lt_pow_iff_right one_lt_two).mp ((le_of_excess hpos).trans_lt h)
    omega

theorem excess_mono (h : n ≤ n') : excess n ≤ excess n' := excess_le (h.trans_lt (lt_of_excess n'))

theorem excess_units (m : ℕ) : excess (units m) = binade m := by
  apply le_antisymm (excess_le (units_lt m))
  rcases Nat.eq_zero_or_pos (binade m) with hzero | hpos
  · omega
  · have hlt := (Nat.pow_lt_pow_iff_right one_lt_two).mp
      ((le_units hpos).trans_lt (lt_of_excess (units m)))
    omega

theorem div_lt_of_excess (n : ℕ) : n / 2 ^ excess n < 2 ^ 24 := by
  rw [Nat.div_lt_iff_lt_mul (Nat.two_pow_pos _), ← pow_add, Nat.add_comm]
  exact lt_of_excess n

theorem le_div_of_excess (h : 0 < excess n) : 2 ^ 23 ≤ n / 2 ^ excess n := by
  rw [Nat.le_div_iff_mul_le (Nat.two_pow_pos _), ← pow_add, Nat.add_comm]
  exact le_of_excess h

theorem roundMagnitude_units (h : m ≤ infinite) : roundMagnitude (units m) 1 = m := by
  have hdvd : 2 ^ binade m ∣ units m := dvd_mul_left _ _
  have hquotient : units m / 2 ^ binade m = m - binade m * 2 ^ 23 :=
    Nat.mul_div_cancel _ (Nat.two_pow_pos _)
  have hle : binade m * 2 ^ 23 ≤ m := by
    simp only [binade]
    omega
  rw [roundMagnitude_one, excess_units, roundHalfEven_of_dvd (Nat.two_pow_pos _) hdvd, hquotient]
  omega

theorem roundMagnitude_mono (h : n ≤ n') : roundMagnitude n 1 ≤ roundMagnitude n' 1 := by
  rw [roundMagnitude_one, roundMagnitude_one]
  apply min_le_min_right
  rcases (excess_mono h).eq_or_lt with heq | hlt
  · rw [heq]
    exact Nat.add_le_add_left (roundHalfEven_mono h) _
  · have hupper := roundHalfEven_le n (2 ^ excess n)
    have hlower := le_roundHalfEven n' (2 ^ excess n')
    have hsmall := div_lt_of_excess n
    have hlarge := le_div_of_excess (n := n') (by omega)
    omega

theorem roundMagnitude_le (hm : m ≤ infinite) (h : n ≤ units m) : roundMagnitude n 1 ≤ m :=
  (roundMagnitude_mono h).trans_eq (roundMagnitude_units hm)

theorem le_roundMagnitude (hm : m ≤ infinite) (h : units m ≤ n) : m ≤ roundMagnitude n 1 :=
  (roundMagnitude_units hm).symm.trans_le (roundMagnitude_mono h)

theorem units_roundMagnitude (hdvd : 2 ^ k ∣ n) (hlt : n < 2 ^ (k + 24)) (hk : k ≤ 253) :
    units (roundMagnitude n 1) = n ∧ roundMagnitude n 1 < infinite := by
  have hexcess : excess n ≤ k := excess_le hlt
  have hdvd' : 2 ^ excess n ∣ n := (pow_dvd_pow 2 hexcess).trans hdvd
  have hsmall := div_lt_of_excess n
  have hsum : excess n * 2 ^ 23 + n / 2 ^ excess n < infinite := by
    have hle : excess n * 2 ^ 23 ≤ 253 * 2 ^ 23 := mul_le_mul_right _ (by omega)
    simp only [infinite]
    omega
  have hbinade : binade (excess n * 2 ^ 23 + n / 2 ^ excess n) = excess n := by
    rcases Nat.eq_zero_or_pos (excess n) with hzero | hpos
    · rw [hzero] at hsmall ⊢
      simp only [binade]
      omega
    · have hlarge := le_div_of_excess hpos
      simp only [binade]
      omega
  rw [roundMagnitude_one, roundHalfEven_of_dvd (Nat.two_pow_pos _) hdvd', min_eq_left hsum.le]
  refine ⟨?_, hsum⟩
  rw [units, hbinade, Nat.add_sub_cancel_left, Nat.div_mul_cancel hdvd']

end

def ofMagnitude (negative : Bool) (magnitude : ℕ) : F32 :=
  ⟨UInt32.ofNat (if negative then 2 ^ 31 + magnitude else magnitude)⟩

/-- The value of a finite word, in units of the least positive one. -/
def value (a : F32) : ℤ := if a.isNegative then -(units a.magnitude : ℤ) else units a.magnitude

/-- The word nearest to a whole number of units. -/
def round (n : ℤ) : F32 := ofMagnitude (n < 0) (roundMagnitude n.natAbs 1)

def scale : ℕ := 2 ^ 149

instance (n : ℕ) : OfNat F32 n where
  ofNat := ofMagnitude false (roundMagnitude (n * scale) 1)

/-- A decimal literal is the word nearest to it. -/
instance : OfScientific F32 where
  ofScientific mantissa negativeExponent exponent :=
    ofMagnitude false <|
      if negativeExponent then roundMagnitude (mantissa * scale) (10 ^ exponent)
      else roundMagnitude (mantissa * 10 ^ exponent * scale) 1

def nan : F32 := ⟨0x7fc00000⟩

instance : Neg F32 where
  neg a := ofMagnitude (!a.isNegative) a.magnitude

def isSignPositive (a : F32) : Bool := !a.isNegative

/-- `a == b`. -/
def eq (a b : F32) : Bool := !a.isNan && !b.isNan && a.key == b.key

instance : Add F32 where
  add a b :=
    if a.isNan || b.isNan then nan
    else if !a.isFinite then if b.isFinite || a == b then a else nan
    else if !b.isFinite then b
    else if a.value + b.value = 0 && a.isNegative && b.isNegative then -0
    else round (a.value + b.value)

instance : Sub F32 where
  sub a b := a + -b

instance : Mul F32 where
  mul a b :=
    let negative := a.isNegative != b.isNegative
    if a.isNan || b.isNan then nan
    else if a.isFinite && b.isFinite then
      ofMagnitude negative (roundMagnitude (units a.magnitude * units b.magnitude) scale)
    else if a.value = 0 || b.value = 0 then nan
    else ofMagnitude negative infinite

/-- `a % b`: the remainder has the sign of the dividend. -/
instance : Mod F32 where
  mod a b :=
    if a.isNan || b.isNan || !a.isFinite || b.value = 0 then nan
    else if !b.isFinite then a
    else ofMagnitude a.isNegative (roundMagnitude (units a.magnitude % units b.magnitude) 1)

def abs (a : F32) : F32 := ofMagnitude false a.magnitude

def remEuclid (a b : F32) : F32 :=
  let r := a % b
  if r.lt 0 then r + b.abs else r

/-- `f32::min`; of two zeros it may be either one. -/
def min (a b : F32) : F32 := if a.isNan then b else if b.lt a then b else a

/-- `if value.is_finite() { value.clamp(min, max) } else { fallback }`. -/
def finiteClamp (value fallback low high : F32) : F32 :=
  if value.isFinite then value.clamp low high else fallback

/-- Finite bounds with a fallback between them. -/
def isRange (fallback low high : F32) : Bool :=
  low.isFinite && high.isFinite && low.le fallback && fallback.le high

variable {fallback high low : F32}

theorem finiteClamp_within (h : isRange fallback low high) (v : F32) :
    low.le (v.finiteClamp fallback low high) ∧ (v.finiteClamp fallback low high).le high := by
  simp only [isRange, Bool.and_eq_true] at h
  obtain ⟨⟨⟨hfloor, hceiling⟩, hlow⟩, hhigh⟩ := h
  rw [finiteClamp]
  split_ifs with hfin
  · have hord : low.le low ∧ low.le high ∧ high.le high := by
      simp only [le, Bool.and_eq_true, decide_eq_true_eq] at hlow hhigh ⊢
      obtain ⟨⟨hl, -⟩, hfront⟩ := hlow
      obtain ⟨⟨-, hh⟩, hback⟩ := hhigh
      exact ⟨⟨⟨hl, hl⟩, le_refl _⟩, ⟨⟨hl, hh⟩, hfront.trans hback⟩, ⟨⟨hh, hh⟩, le_refl _⟩⟩
    rcases clamp_cases v low high (isNan_of_isFinite hfin)
      (isNan_of_isFinite hfloor) (isNan_of_isFinite hceiling) with
      heq | heq | ⟨heq, hbelow, habove⟩
    · rw [heq]
      exact ⟨hord.1, hord.2.1⟩
    · rw [heq]
      exact ⟨hord.2.1, hord.2.2⟩
    · rw [heq]
      exact ⟨hbelow, habove⟩
  · exact ⟨hlow, hhigh⟩

theorem finiteClamp_of_le {v : F32} (h : isRange fallback low high)
    (hlow : low.le v) (hhigh : v.le high) :
    v.finiteClamp fallback low high = v := by
  simp only [isRange, Bool.and_eq_true] at h
  rw [finiteClamp, if_pos (isFinite_of_le h.1.1.1 h.1.1.2 hlow hhigh), clamp_of_le hlow hhigh]

theorem finiteClamp_finiteClamp (h : isRange fallback low high) (v : F32) :
    (v.finiteClamp fallback low high).finiteClamp fallback low high =
      v.finiteClamp fallback low high :=
  finiteClamp_of_le h (finiteClamp_within h v).1 (finiteClamp_within h v).2

section

variable {a b : F32} {negative : Bool} {m : ℕ} {n : ℤ}

theorem toNat_ofMagnitude (h : m < 2 ^ 31) :
    (ofMagnitude negative m).bits.toNat = if negative then 2 ^ 31 + m else m := by
  simp only [ofMagnitude]
  split_ifs <;> exact UInt32.toNat_ofNat_of_lt' (by simp [UInt32.size]; omega)

theorem magnitude_ofMagnitude (h : m < 2 ^ 31) : (ofMagnitude negative m).magnitude = m := by
  rw [magnitude, toNat_ofMagnitude h]
  split_ifs <;> omega

theorem isNegative_ofMagnitude (h : m < 2 ^ 31) :
    (ofMagnitude negative m).isNegative = negative := by
  rw [isNegative, toNat_ofMagnitude h]
  cases negative with
  | false => simpa using h
  | true => simp

theorem magnitude_lt (a : F32) : a.magnitude < 2 ^ 31 := Nat.mod_lt _ (Nat.two_pow_pos _)

theorem ofMagnitude_magnitude (a : F32) : ofMagnitude a.isNegative a.magnitude = a := by
  have hword : a.bits.toNat < 2 ^ 32 := a.bits.toNat_lt
  have hbits : (ofMagnitude a.isNegative a.magnitude).bits = a.bits := by
    apply UInt32.toNat_inj.mp
    rw [toNat_ofMagnitude (magnitude_lt a)]
    simp only [isNegative, magnitude, decide_eq_true_eq]
    split_ifs <;> omega
  calc
    ofMagnitude a.isNegative a.magnitude = ⟨a.bits⟩ := congrArg F32.mk hbits
    _ = a := rfl

theorem roundMagnitude_le_infinite (n d : ℕ) : roundMagnitude n d ≤ infinite := min_le_right _ _

theorem magnitude_round (n : ℤ) : (round n).magnitude = roundMagnitude n.natAbs 1 :=
  magnitude_ofMagnitude <| (roundMagnitude_le_infinite _ _).trans_lt (by decide)

theorem isNegative_round (n : ℤ) : (round n).isNegative = decide (n < 0) :=
  isNegative_ofMagnitude <| (roundMagnitude_le_infinite _ _).trans_lt (by decide)

theorem isFinite_iff : a.isFinite ↔ a.magnitude < infinite := decide_eq_true_iff

theorem natAbs_value (a : F32) : a.value.natAbs = units a.magnitude := by
  simp only [value]
  split_ifs <;> simp

theorem units_pos (h : 0 < m) : 0 < units m := lt_of_lt_of_le (by decide) (units_mono (m := 1) h)

theorem value_nonneg (h : a.isNegative = false) : 0 ≤ a.value := by
  simp [value, h]

theorem round_value (hfin : a.isFinite) (hzero : a ≠ -0) : round a.value = a := by
  have hsign : decide (a.value < 0) = a.isNegative := by
    by_cases hneg : a.isNegative
    · have hmagnitude : 0 < a.magnitude := by
        apply pos_of_ne_zero
        intro h
        apply hzero
        rw [← ofMagnitude_magnitude a, h, hneg]
        decide
      simpa [value, hneg] using units_pos hmagnitude
    · simp [value, hneg]
  rw [round, natAbs_value, roundMagnitude_units (isFinite_iff.mp hfin).le,
    hsign, ofMagnitude_magnitude]

theorem natAbs_value_round (n : ℤ) :
    (round n).value.natAbs = units (roundMagnitude n.natAbs 1) := by
  rw [natAbs_value, magnitude_round]

theorem value_round_nonneg (h : 0 ≤ n) : 0 ≤ (round n).value := by
  apply value_nonneg
  simpa [isNegative_round] using h

theorem value_round_nonpos (h : n ≤ 0) : (round n).value ≤ 0 := by
  rcases h.eq_or_lt with rfl | hlt
  · decide
  · have hsign : (round n).isNegative := by
      rw [isNegative_round]
      exact decide_eq_true hlt
    simp [value, hsign]

theorem round_within (hm : m < infinite) (h : n.natAbs ≤ units m) :
    (round n).isFinite ∧ (round n).value.natAbs ≤ units m := by
  have hle := roundMagnitude_le hm.le h
  refine ⟨?_, ?_⟩
  · rw [isFinite_iff, magnitude_round]
    exact hle.trans_lt hm
  · rw [natAbs_value_round]
    exact units_mono hle

theorem round_beyond (hm : m < infinite) (h : units m ≤ n.natAbs) :
    units m ≤ (round n).value.natAbs := by
  rw [natAbs_value_round]
  exact units_mono (le_roundMagnitude hm.le h)

theorem round_ne_negative_zero (n : ℤ) : round n ≠ -0 := by
  intro h
  have hsign : (round n).isNegative := by
    rw [h]
    decide
  rw [isNegative_round, decide_eq_true_eq] at hsign
  have hbeyond := round_beyond (m := 1) (by decide)
    (show units 1 ≤ n.natAbs by
      have hone : units 1 = 1 := by decide
      omega)
  rw [h] at hbeyond
  revert hbeyond
  decide

theorem value_round {k : ℕ} (hdvd : (2 ^ k : ℤ) ∣ n)
    (hlt : n.natAbs < 2 ^ (k + 24)) (hk : k ≤ 253) :
    (round n).value = n := by
  have hdvd' : 2 ^ k ∣ n.natAbs := by
    have h := Int.natAbs_dvd_natAbs.mpr hdvd
    simpa [Int.natAbs_pow] using h
  have habs := natAbs_value_round n
  rw [(units_roundMagnitude hdvd' hlt hk).1] at habs
  rcases Int.le_total 0 n with h | h
  · have hsign := value_round_nonneg h
    omega
  · have hsign := value_round_nonpos h
    omega

theorem dvd_value {k : ℕ} (h : 2 ^ (k + 23) ≤ a.value.natAbs) : (2 ^ k : ℤ) ∣ a.value := by
  rw [natAbs_value] at h
  have hdvd := dvd_units h
  rw [← natAbs_value] at hdvd
  simpa [Int.natAbs_pow] using Int.natCast_dvd.mpr hdvd

end

section

variable {a b : F32}

theorem add_eq_round (ha : a.isFinite) (hb : b.isFinite)
    (hzero : a.isNegative = false ∨ b.isNegative = false ∨ a.value + b.value ≠ 0) :
    a + b = round (a.value + b.value) := by
  have hex : (a.value + b.value = 0 && a.isNegative && b.isNegative) = false := by
    rcases hzero with h | h | h
    · simp [h]
    · simp [h]
    · simp [h]
  change (if a.isNan || b.isNan then nan
    else if !a.isFinite then if b.isFinite || a == b then a else nan
    else if !b.isFinite then b
    else if a.value + b.value = 0 && a.isNegative && b.isNegative then -0
    else round (a.value + b.value)) = _
  simp [isNan_of_isFinite ha, isNan_of_isFinite hb, ha, hb, hex]

theorem isNegative_neg (a : F32) : (-a).isNegative = !a.isNegative :=
  isNegative_ofMagnitude (magnitude_lt a)

theorem magnitude_neg (a : F32) : (-a).magnitude = a.magnitude :=
  magnitude_ofMagnitude (magnitude_lt a)

theorem value_neg (a : F32) : (-a).value = -a.value := by
  cases h : a.isNegative with
  | false | true => simp [value, isNegative_neg, magnitude_neg, h]

theorem isFinite_neg (a : F32) : (-a).isFinite = a.isFinite := by
  simp only [isFinite, magnitude_neg]

theorem sub_eq_round (ha : a.isFinite) (hb : b.isFinite)
    (hzero : a.isNegative = false ∨ b.isNegative ∨ a.value ≠ b.value) :
    a - b = round (a.value - b.value) := by
  have hsum := add_eq_round ha ((isFinite_neg b).trans hb) (by
    rw [isNegative_neg, value_neg]
    rcases hzero with h | h | h
    · exact .inl h
    · simp [h]
    · omega)
  rw [value_neg, ← Int.sub_eq_add_neg] at hsum
  exact hsum

theorem mod_eq (ha : a.isFinite) (hb : b.isFinite) (hzero : b.value ≠ 0) :
    a % b = ofMagnitude a.isNegative
      (roundMagnitude (units a.magnitude % units b.magnitude) 1) := by
  change (if a.isNan || b.isNan || !a.isFinite || b.value = 0 then nan
    else if !b.isFinite then a
    else ofMagnitude a.isNegative (roundMagnitude (units a.magnitude % units b.magnitude) 1)) = _
  simp [isNan_of_isFinite ha, isNan_of_isFinite hb, ha, hb, hzero]

theorem isNegative_of_pos (h : 0 < a.value) : a.isNegative = false := by
  by_contra hneg
  rw [value, if_pos (by simpa using hneg)] at h
  omega

theorem lt_zero_iff (ha : a.isFinite) : a.lt 0 ↔ a.value < 0 := by
  have hkey : (0 : F32).key = 0 := by decide
  have hnan : (0 : F32).isNan = false := by decide
  simp only [lt, isNan_of_isFinite ha, hnan, hkey, Bool.not_false, Bool.true_and, decide_eq_true_eq]
  rw [key, value]
  rcases Nat.eq_zero_or_pos a.magnitude with hzero | hpos
  · simp [hzero, units]
  · have hunits := units_pos hpos
    split_ifs <;> omega

theorem mod_within (ha : a.isFinite) (hb : b.isFinite) (hzero : b.value ≠ 0) :
    (a % b).isFinite ∧ (a % b).value.natAbs ≤ b.value.natAbs := by
  have hpos : 0 < units b.magnitude := by
    rw [← natAbs_value]
    omega
  have hle := roundMagnitude_le (isFinite_iff.mp hb).le (mod_lt (units a.magnitude) hpos).le
  have hlt := hle.trans_lt (magnitude_lt b)
  rw [mod_eq ha hb hzero]
  constructor
  · rw [isFinite_iff, magnitude_ofMagnitude hlt]
    exact hle.trans_lt (isFinite_iff.mp hb)
  · rw [natAbs_value, magnitude_ofMagnitude hlt, natAbs_value]
    exact units_mono hle

theorem mod_of_lt (ha : a.isFinite) (hb : b.isFinite)
    (h : a.value.natAbs < b.value.natAbs) : a % b = a := by
  rw [mod_eq ha hb (by omega), ← natAbs_value b, ← natAbs_value a, mod_eq_of_lt h, natAbs_value,
    roundMagnitude_units (isFinite_iff.mp ha).le, ofMagnitude_magnitude]

theorem remEuclid_of_lt (ha : a.isFinite) (hb : b.isFinite)
    (hlow : 0 ≤ a.value) (h : a.value.natAbs < b.value.natAbs) :
    a.remEuclid b = a := by
  have hlt : ¬a.lt 0 := by
    rw [lt_zero_iff ha]
    omega
  rw [remEuclid, mod_of_lt ha hb h, if_neg hlt]

theorem remEuclid_within (ha : a.isFinite) (hb : b.isFinite) (hpos : 0 < b.value) :
    (a.remEuclid b).isFinite ∧ 0 ≤ (a.remEuclid b).value ∧ (a.remEuclid b).value ≤ b.value := by
  obtain ⟨hfin, hwith⟩ := mod_within ha hb (by omega)
  have hlt := lt_zero_iff hfin
  rw [remEuclid]
  split_ifs with hbelow
  · have hsign := isNegative_of_pos hpos
    have habs : b.abs = b := by rw [abs, ← hsign, ofMagnitude_magnitude]
    have hunits := natAbs_value b
    rw [hlt] at hbelow
    obtain ⟨hround, hbd⟩ := round_within (m := b.magnitude)
      (n := (a % b).value + b.value) (isFinite_iff.mp hb) (by omega)
    rw [habs, add_eq_round hfin hb (.inr (.inl hsign))]
    have hnonneg := value_round_nonneg (n := (a % b).value + b.value) (by omega)
    exact ⟨hround, hnonneg, by omega⟩
  · rw [hlt] at hbelow
    exact ⟨hfin, by omega, by omega⟩

theorem value_le_of_le (h : a.le b) : a.value ≤ b.value := by
  simp only [le, Bool.and_eq_true, decide_eq_true_eq] at h
  have hkey := h.2
  simp only [key, value] at hkey ⊢
  split_ifs at hkey ⊢
  · have hunits := units_mono (show b.magnitude ≤ a.magnitude by omega)
    omega
  · omega
  · have hleft : a.magnitude = 0 := by omega
    have hright : b.magnitude = 0 := by omega
    simp [hleft, hright, units]
  · have hunits := units_mono (show a.magnitude ≤ b.magnitude by omega)
    omega

theorem round_between {n : ℤ} (hb : b.isFinite) (hlow : 0 ≤ n)
    (hhigh : n ≤ b.value) : (0 : F32).le (round n) ∧ (round n).le b := by
  have hunits := natAbs_value b
  obtain ⟨hfin, -⟩ := round_within (n := n) (isFinite_iff.mp hb) (by omega)
  have hmagnitude := roundMagnitude_le (n := n.natAbs) (isFinite_iff.mp hb).le (by omega)
  have hround := magnitude_round n
  have hsign := isNegative_round n
  have hzero : (0 : F32).isNan = false ∧ (0 : F32).key = 0 := by decide
  have hkey : (round n).key = (round n).magnitude := by rw [key, if_neg (by simp [hsign, hlow])]
  simp only [le, isNan_of_isFinite hfin, isNan_of_isFinite hb, hzero, hkey,
    Bool.not_false, Bool.true_and, decide_eq_true_eq]
  refine ⟨by omega, ?_⟩
  rw [key]
  split_ifs with hneg
  · rw [value, if_pos hneg] at hhigh
    have hzero : ¬0 < b.magnitude := by
      intro h
      have hpos := units_pos h
      omega
    omega
  · omega

end

end CollideOScope.F32
