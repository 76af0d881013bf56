import Mathlib.Algebra.Order.Floor.Ring
import Mathlib.Tactic.Ring

/-!
# Phases on a circle

A motion with a constant speed around a circle is described by its phase, a
number modulo the period.  A reduced phase moves like the
phase, and the crossings of slices add up.
-/

namespace CollideOScope

open Int

section

variable {K : Type*} [Field K] [LinearOrder K] [FloorRing K] {period span x d e : K}

/-- `rem_euclid` by a positive period. -/
def remEuclid (x period : K) : K := x - period * ⌊x / period⌋

/-- The boundaries, spaced by `span`, that a motion by `d` from `x` reaches. -/
def crossings (span x d : K) : ℤ := ⌊(x + d) / span⌋ - ⌊x / span⌋

theorem crossings_add :
    crossings span x (d + e) = crossings span x d + crossings span (x + d) e := by
  unfold crossings
  rw [add_assoc x d e]
  ring

theorem remEuclid_eq_fract (h : 0 < period) : remEuclid x period = period * fract (x / period) := by
  rw [remEuclid, fract, mul_sub, mul_div_cancel₀ x h.ne']

variable [IsStrictOrderedRing K]

theorem remEuclid_nonneg (h : 0 < period) : 0 ≤ remEuclid x period := by
  rw [remEuclid_eq_fract h]
  exact mul_nonneg h.le (fract_nonneg _)

theorem remEuclid_lt (h : 0 < period) : remEuclid x period < period := by
  rw [remEuclid_eq_fract h]
  exact mul_lt_of_lt_one_right h (fract_lt_one _)

theorem floor_remEuclid_add (h : 0 < period) :
    ⌊(remEuclid x period + d) / period⌋ = ⌊(x + d) / period⌋ - ⌊x / period⌋ := by
  have hdiv : (remEuclid x period + d) / period = (x + d) / period - ⌊x / period⌋ := by
    unfold remEuclid
    field_simp
    ring
  rw [hdiv, floor_sub_intCast]

theorem remEuclid_remEuclid_add (h : 0 < period) :
    remEuclid (remEuclid x period + d) period = remEuclid (x + d) period := by
  have hturns := floor_remEuclid_add (x := x) (d := d) h
  rw [remEuclid, hturns, remEuclid, remEuclid]
  push_cast
  ring

theorem crossings_remEuclid (h : 0 < span) (n : ℤ) :
    crossings span (remEuclid x (n * span)) d = crossings span x d := by
  have hshift (y : K) : (remEuclid x (n * span) + y) / span =
      (x + y) / span - (n * ⌊x / (n * span)⌋ : ℤ) := by
    unfold remEuclid
    push_cast
    field_simp
    ring
  have hzero := hshift 0
  rw [add_zero, add_zero] at hzero
  unfold crossings
  rw [hshift d, hzero, floor_sub_intCast, floor_sub_intCast]
  ring

theorem crossings_nonneg (h : 0 < span) (hd : 0 ≤ d) : 0 ≤ crossings span x d := by
  apply sub_nonneg.mpr
  apply floor_le_floor
  apply div_le_div_of_nonneg_right _ h.le
  exact le_add_of_nonneg_right hd

end

section

variable {K : Type*} [Field K] [LinearOrder K] [IsStrictOrderedRing K] {span x : K}

/-- The offset of a phase of the circle of two spans, folded onto one span. -/
def reflect (span phase : K) : K := if phase ≤ span then phase else 2 * span - phase

theorem reflect_nonneg (h₀ : 0 ≤ x) (h : x < 2 * span) : 0 ≤ reflect span x := by
  unfold reflect
  by_cases hx : x ≤ span
  · rwa [if_pos hx]
  · rw [if_neg hx]
    linarith

theorem reflect_le : reflect span x ≤ span := by
  unfold reflect
  by_cases hx : x ≤ span
  · rwa [if_pos hx]
  · rw [if_neg hx]
    linarith [not_le.mp hx]

end

end CollideOScope
