import CollideOScope.Performance.Control
import CollideOScope.Support.Binary32

/-!
# Value laws

A law is the lattice the values of one address are quantized on.  It encodes an
authored value as a 16-bit code, or refuses it, and decodes the code.  The
arithmetic on single-precision values is left uninterpreted; comparisons and
clamping are exact.
-/

namespace CollideOScope.Performance

open List Option

open CollideOScope.Checks

def maxPerformanceVocabTokens : ℕ := 64

/-- Arithmetic on single-precision values, without an interpretation. -/
class F32Arithmetic where
  add : F32 → F32 → F32
  sub : F32 → F32 → F32
  mul : F32 → F32 → F32
  div : F32 → F32 → F32
  round : F32 → F32
  /-- `value as u16`. -/
  toU16 : F32 → UInt16
  /-- `f32::from(code)`. -/
  ofU16 : UInt16 → F32

/-- `65_535.0`. -/
def performanceQ16Scale : F32 := ⟨0x477fff00⟩

inductive PerformanceValueLaw
  | unit (min max : F32)
  | discrete (vocab : List String)
  | toggle
  | stepped (min max : Int64)

inductive PerformanceRawValue
  | continuous (value : F32)
  | token (token : String)
  | toggle (value : Bool)
  | integer (value : Int64)

def saturatingSub (a b : Int64) : ℤ := max (-2 ^ 63) (min (a.toInt - b.toInt) (2 ^ 63 - 1))

/-- `i64::saturating_add` of a code. -/
def saturatingAddCode (a : Int64) (code : UInt16) : Int64 :=
  .ofInt (min (a.toInt + code.toNat) (2 ^ 63 - 1))

/-- `u16::try_from`. -/
def u16TryFrom (n : ℤ) : Option UInt16 :=
  if 0 ≤ n ∧ n < 2 ^ 16 then some (UInt16.ofNat n.toNat) else none

/-- `i64::clamp`. -/
def clampI64 (value low high : Int64) : Int64 :=
  if value < low then low else if high < value then high else value

namespace PerformanceValueLaw

def code : PerformanceValueLaw → UInt8
  | unit .. => 0
  | discrete .. => 1
  | toggle => 2
  | stepped .. => 3

def lawToken : PerformanceValueLaw → String
  | unit .. => "unit"
  | discrete .. => "discrete"
  | toggle => "toggle"
  | stepped .. => "stepped"

def validate : PerformanceValueLaw → Except PerformanceError Unit
  | unit min max => refuse (min.isFinite = false ∨ max.isFinite = false ∨ max.le min) .invalidLaw
  | discrete vocab => do
      refuse (vocab.isEmpty ∨ vocab.length > maxPerformanceVocabTokens) (.vocabTokens vocab.length)
      forEach (refuseName .tokenBytes) vocab
      refuseRepeats id .duplicateToken [] vocab
  | toggle => pure ()
  | stepped min max => refuse (max ≤ min ∨ saturatingSub max min > 65535) .invalidLaw

section

variable [F32Arithmetic]

open F32Arithmetic

/-- The index of the lattice point that a continuous value is quantized to. -/
def unitIndex (min max value : F32) : UInt16 :=
  let span := sub max min
  let normalized := (div (sub (value.clamp min max) min) span).clamp .zero .one
  toU16 (round (mul normalized performanceQ16Scale))

def unitPoint (min max : F32) (index : UInt16) : F32 :=
  let normalized := div (ofU16 index) performanceQ16Scale
  add min (mul normalized (sub max min))

def encode : PerformanceValueLaw → PerformanceRawValue → Option UInt16
  | unit min max, .continuous value =>
    if value.isFinite then some (unitIndex min max value) else none
  | discrete vocab, .token token => (vocab.findIdx? (· == token)).bind fun index => u16TryFrom index
  | toggle, .toggle value => some value.toUInt16
  | stepped min max, .integer value => u16TryFrom ((clampI64 value min max).toInt - min.toInt)
  | _, _ => none

def decode : PerformanceValueLaw → UInt16 → Option PerformanceRawValue
  | unit min max, code => some (.continuous (unitPoint min max code))
  | discrete vocab, code => vocab[code.toNat]?.map .token
  | toggle, code =>
    if code = 0 then some (.toggle false)
    else if code = 1 then some (.toggle true)
    else none
  | stepped min max, code =>
    let value := saturatingAddCode min code
    if value ≤ max then some (.integer value) else none

end

/-- The `valid` of `validateValue`. -/
def admits : PerformanceValueLaw → UInt16 → Bool
  | unit .., _ => true
  | discrete vocab, code => code.toNat < vocab.length
  | toggle, code => code ≤ 1
  | stepped min max, code => (code.toNat : ℤ) ≤ saturatingSub max min

def validateValue (law : PerformanceValueLaw) (code : UInt16) : Except PerformanceError Unit :=
  refuse (law.admits code = false) (.invalidValue code)

/-- What `validate` accepts. -/
def Valid : PerformanceValueLaw → Prop
  | unit min max => min.isFinite ∧ max.isFinite ∧ max.le min = false
  | discrete vocab => vocab ≠ [] ∧
      vocab.length ≤ maxPerformanceVocabTokens ∧
      (∀ token ∈ vocab, IsName token) ∧ vocab.Nodup
  | toggle => True
  | stepped min max => min.toInt < max.toInt ∧ max.toInt - min.toInt ≤ 65535

theorem validate_ok {law : PerformanceValueLaw} {u : Unit} : law.validate = .ok u ↔ law.Valid := by
  cases law with
  | unit min max | toggle => simp [validate, Valid]
  | discrete vocab =>
    simp only [validate, bind_ok, exists_unit, refuse_ok, forEach_ok,
      refuseName_ok, refuseRepeats_ok List.nodup_nil, Valid, not_or, not_lt,
      List.nil_append, List.map_id, List.isEmpty_iff, and_assoc]
  | stepped min max =>
    simp only [validate, refuse_ok, Valid, saturatingSub, not_or, not_lt, Int64.le_iff_toInt_le]
    omega

theorem u16TryFrom_eq_some {n : ℤ} {code : UInt16} : u16TryFrom n = some code ↔ n = code.toNat := by
  have hcode := UInt16.toNat_lt code
  rw [u16TryFrom]
  constructor
  · intro h
    obtain ⟨⟨hlow, hhigh⟩, hsome⟩ := ite_none_right_eq_some.mp h
    rw [← some.inj hsome, UInt16.toNat_ofNat']
    omega
  · rintro rfl
    rw [if_pos (by omega), Int.toNat_natCast, UInt16.ofNat_toNat]

theorem clampI64_bounds (value : Int64) {low high : Int64} (h : low.toInt < high.toInt) :
    low.toInt ≤ (clampI64 value low high).toInt ∧ (clampI64 value low high).toInt ≤ high.toInt := by
  rw [clampI64]
  split
  · exact ⟨le_rfl, h.le⟩
  · rename_i hlow
    split
    · exact ⟨h.le, le_rfl⟩
    · rename_i hhigh
      rw [Int64.lt_iff_toInt_lt, not_lt] at hlow hhigh
      exact ⟨hlow, hhigh⟩

section

variable [F32Arithmetic]

/-- The value of the lattice that an authored value is recorded as. -/
def quantized : PerformanceValueLaw → PerformanceRawValue → Option PerformanceRawValue
  | unit min max, .continuous value =>
    if value.isFinite then some (.continuous (unitPoint min max (unitIndex min max value)))
    else none
  | discrete vocab, .token token => if token ∈ vocab then some (.token token) else none
  | toggle, .toggle value => some (.toggle value)
  | stepped min max, .integer value => some (.integer (clampI64 value min max))
  | _, _ => none

theorem decode_encode {law : PerformanceValueLaw} {raw : PerformanceRawValue}
    {code : UInt16} (hvalid : law.Valid) (h : law.encode raw = some code) :
    law.admits code ∧ law.decode code = law.quantized raw ∧ (law.decode code).isSome := by
  cases law with
  | unit min max =>
    cases raw with
    | continuous value =>
      obtain ⟨hfin, hcode⟩ := ite_none_right_eq_some.mp h
      refine ⟨rfl, ?_, rfl⟩
      rw [quantized, if_pos hfin, decode, some.inj hcode]
    | token token | toggle value | integer value => cases h
  | discrete vocab =>
    cases raw with
    | token token =>
      obtain ⟨index, hidx, hcode⟩ := bind_eq_some_iff.mp h
      obtain ⟨hlt, htok, -⟩ := findIdx?_eq_some_iff_getElem.mp hidx
      have hnat : index = code.toNat := by exact_mod_cast u16TryFrom_eq_some.mp hcode
      subst hnat
      have hmem : token ∈ vocab := by
        rw [← beq_iff_eq.mp htok]
        exact getElem_mem hlt
      rw [decode, getElem?_eq_getElem hlt, beq_iff_eq.mp htok, quantized, if_pos hmem]
      refine ⟨?_, rfl, rfl⟩
      exact decide_eq_true hlt
    | continuous value | toggle value | integer value => cases h
  | toggle =>
    cases raw with
    | toggle value =>
      have hcode : value.toUInt16 = code := some.inj h
      subst hcode
      cases value with
      | false | true => exact ⟨rfl, rfl, rfl⟩
    | continuous value | token token | integer value => cases h
  | stepped min max =>
    cases raw with
    | integer value =>
      obtain ⟨hord, hspan⟩ := hvalid
      have hcode := u16TryFrom_eq_some.mp h
      have hbds := clampI64_bounds value hord
      have hmax := Int64.toInt_lt max
      have hval : saturatingAddCode min code = clampI64 value min max := by
        rw [saturatingAddCode, ← hcode, min_eq_left (by omega), add_sub_cancel, Int64.ofInt_toInt]
      have hle : clampI64 value min max ≤ max := Int64.le_iff_toInt_le.mpr hbds.2
      rw [decode, hval, if_pos hle]
      refine ⟨decide_eq_true ?_, rfl, rfl⟩
      rw [saturatingSub]
      omega
    | continuous value | token token | toggle value => cases h

end

end PerformanceValueLaw

end CollideOScope.Performance
