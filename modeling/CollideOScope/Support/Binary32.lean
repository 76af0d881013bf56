import Mathlib.Data.Rat.Sqrt
import Mathlib.Data.UInt

/-!
# Single-precision values as words

A single-precision value is its 32-bit word.  Two values that are not nans
compare as the signed magnitudes of their words, infinities and both zeros
included, so comparisons and clamping need no arithmetic.
-/

namespace CollideOScope

structure F32 where
  bits : UInt32
  deriving DecidableEq

namespace F32

def magnitude (a : F32) : ℕ := a.bits.toNat % 2 ^ 31

def isNegative (a : F32) : Bool := 2 ^ 31 ≤ a.bits.toNat

def isNan (a : F32) : Bool := 0x7f800000 < a.magnitude

def isFinite (a : F32) : Bool := a.magnitude < 0x7f800000

/-- The position of a value in the order of the values that are not nans. -/
def key (a : F32) : ℤ := if a.isNegative then -(a.magnitude : ℤ) else a.magnitude

/-- `a < b`. -/
def lt (a b : F32) : Bool := !a.isNan && !b.isNan && a.key < b.key

/-- `a <= b`. -/
def le (a b : F32) : Bool := !a.isNan && !b.isNan && a.key ≤ b.key

def zero : F32 := ⟨0⟩

def half : F32 := ⟨0x3f000000⟩

def one : F32 := ⟨0x3f800000⟩

def clamp (value low high : F32) : F32 :=
  let value := if value.lt low then low else value
  if high.lt value then high else value

variable {a : F32}

theorem isNan_of_isFinite (h : a.isFinite) : a.isNan = false := by
  simp only [isFinite, decide_eq_true_eq] at h
  simp only [isNan, decide_eq_false_iff_not, not_lt]
  exact h.le

theorem le_of_lt_eq_false {b : F32} (ha : a.isNan = false)
    (hb : b.isNan = false) (h : a.lt b = false) : b.le a := by
  simp only [lt, ha, hb, Bool.not_false, Bool.true_and, decide_eq_false_iff_not, not_lt] at h
  simp [le, ha, hb, h]

theorem clamp_cases (value low high : F32) (hval : value.isNan = false)
    (hlow : low.isNan = false) (hhigh : high.isNan = false) :
    (value.clamp low high = low) ∨ (value.clamp low high = high) ∨
      (value.clamp low high = value ∧ low.le value ∧ value.le high) := by
  simp only [clamp]
  by_cases hbelow : value.lt low
  · rw [if_pos hbelow]
    by_cases habove : high.lt low
    · exact .inr (.inl (if_pos habove))
    · exact .inl (if_neg habove)
  · rw [if_neg hbelow]
    by_cases habove : high.lt value
    · exact .inr (.inl (if_pos habove))
    · refine .inr (.inr ⟨if_neg habove, ?_, ?_⟩)
      · exact le_of_lt_eq_false hval hlow (by simpa using hbelow)
      · exact le_of_lt_eq_false hhigh hval (by simpa using habove)

variable {value : F32}

theorem clamp_unit (h : value.isFinite) :
    zero.le (value.clamp zero one) ∧ (value.clamp zero one).le one := by
  rcases clamp_cases value zero one (isNan_of_isFinite h)
    (by decide) (by decide) with heq | heq | ⟨heq, hlow, hhigh⟩
  · rw [heq]
    decide
  · rw [heq]
    decide
  · rw [heq]
    exact ⟨hlow, hhigh⟩

variable {high low : F32}

theorem isFinite_of_le (hfloor : low.isFinite) (hceiling : high.isFinite)
    (hlow : low.le value) (hhigh : value.le high) : value.isFinite := by
  simp only [le, Bool.and_eq_true, decide_eq_true_eq] at hlow hhigh
  obtain ⟨-, hlow⟩ := hlow
  obtain ⟨-, hhigh⟩ := hhigh
  simp only [isFinite, decide_eq_true_eq, key] at *
  split_ifs at hlow hhigh <;> omega

theorem clamp_of_le (hlow : low.le value) (hhigh : value.le high) :
    value.clamp low high = value := by
  have hbelow : value.lt low = false := by
    simp only [le, lt, Bool.and_eq_true, decide_eq_true_eq,
      Bool.and_eq_false_iff, decide_eq_false_iff_not] at hlow ⊢
    exact .inr (not_lt.mpr hlow.2)
  have habove : high.lt value = false := by
    simp only [le, lt, Bool.and_eq_true, decide_eq_true_eq,
      Bool.and_eq_false_iff, decide_eq_false_iff_not] at hhigh ⊢
    exact .inr (not_lt.mpr hhigh.2)
  simp [clamp, hbelow, habove]

theorem isFinite_of_unit (hlow : zero.le value) (hhigh : value.le one) : value.isFinite :=
  isFinite_of_le (by decide) (by decide) hlow hhigh

theorem clamp_of_unit (hlow : zero.le value) (hhigh : value.le one) :
    value.clamp zero one = value :=
  clamp_of_le hlow hhigh

theorem clamp_clamp (h : value.isFinite) :
    (value.clamp zero one).clamp zero one = value.clamp zero one :=
  clamp_of_unit (clamp_unit h).1 (clamp_unit h).2

end F32

/-!
## Component arithmetic

The operations on floating-point components that the modelled programs use,
without an interpretation.
-/

/-- Uninterpreted floating-point operations. -/
class FloatOps (F : Type*) extends Add F, Sub F, Mul F, Div F, Neg F where
  /-- The component a decimal literal stands for. -/
  lit : ℚ → F
  lt : F → F → Bool
  eq : F → F → Bool
  max : F → F → F
  min : F → F → F
  abs : F → F
  floor : F → F
  sqrt : F → F
  clamp : F → F → F → F
  isFinite : F → Bool

/-- Exact rational components: nothing is rounded and everything is finite.
Square roots are exact on squares. -/
instance : FloatOps ℚ where
  lit := id
  lt a b := a < b
  eq a b := a = b
  max a b := if a < b then b else a
  min a b := if b < a then b else a
  abs a := if a < 0 then -a else a
  floor a := Rat.floor a
  sqrt := Rat.sqrt
  clamp value low high := if value < low then low else if high < value then high else value
  isFinite _ := true

/-- Four components: a colour or a register of a shader. -/
structure Vec4 (F : Type*) where
  (x y z w : F)

structure Vec3 (F : Type*) where
  (x y z : F)

structure Vec2 (F : Type*) where
  (x y : F)

namespace Vec4

variable {F : Type*}

def splat (v : F) : Vec4 F := ⟨v, v, v, v⟩

def map (f : F → F) (v : Vec4 F) : Vec4 F := ⟨f v.x, f v.y, f v.z, f v.w⟩

def map₂ (f : F → F → F) (v w : Vec4 F) : Vec4 F := ⟨f v.x w.x, f v.y w.y, f v.z w.z, f v.w w.w⟩

end Vec4

namespace Vec2

variable {F : Type*}

def map (f : F → F) (v : Vec2 F) : Vec2 F := ⟨f v.x, f v.y⟩

def map₂ (f : F → F → F) (v w : Vec2 F) : Vec2 F := ⟨f v.x w.x, f v.y w.y⟩

end Vec2

end CollideOScope
