import Mathlib.Data.Nat.Bitwise
import Mathlib.Data.Nat.Digits.Defs

/-!
# Machine words

Counters of 64-bit words, fixed-width little-endian fields of byte strings with
the two round trips between a number and its field, and words that carry a field
in each half.

A counter that saturates is a natural number bounded by `u64Max`.  A counter
that wraps is a `UInt64`.
-/

namespace CollideOScope

open List Nat

def u64Max : ℕ := 2 ^ 64 - 1

theorem one_isIdentity : 0 < 1 ∧ 1 ≤ u64Max := by
  decide

/-- `u64::saturating_add`. -/
def saturatingAddU64 (a b : ℕ) : ℕ := min (a + b) u64Max

variable {a b : ℕ}

theorem saturatingAddU64_of_le (h : a + b ≤ u64Max) : saturatingAddU64 a b = a + b := min_eq_left h

theorem saturatingAddU64_le_iff {limit : ℕ} (h : limit < u64Max) :
    saturatingAddU64 a b ≤ limit ↔ a + b ≤ limit := by
  unfold saturatingAddU64
  omega

/-- `wrapping_add(1).max(1)`: the next nonzero revision. -/
def nextRevision (revision : UInt64) : UInt64 := max (revision + 1) 1

/-- A number, if a word of `bits` bits holds it. -/
def checkedWord (bits n : ℕ) : Option ℕ := if n < 2 ^ bits then some n else none

variable {n : ℕ}

@[simp]
theorem checkedWord_eq_some {bits m : ℕ} : checkedWord bits n = some m ↔ n < 2 ^ bits ∧ n = m := by
  unfold checkedWord
  by_cases h : n < 2 ^ bits
  · simp [h]
  · simp [h]

/-- `u32::try_from`. -/
def tryFromU32 (n : ℕ) : Option ℕ := checkedWord 32 n

/-- `u32::checked_add`. -/
def checkedAddU32 (a b : ℕ) : Option ℕ := checkedWord 32 (a + b)

/-- `u64::checked_add`; `usize` has the same width. -/
def checkedAddU64 (a b : ℕ) : Option ℕ := checkedWord 64 (a + b)

/-- `u64::checked_mul`. -/
def checkedMulU64 (a b : ℕ) : Option ℕ := checkedWord 64 (a * b)

abbrev Bytes := List UInt8

/-- The `width` low-order bytes of `n`, least significant first. -/
def leBytes : ℕ → ℕ → Bytes
  | 0, _ => []
  | width + 1, n => UInt8.ofNat n :: leBytes width (n / 256)

/-- The number whose little-endian bytes are given. -/
def leNat : Bytes → ℕ
  | [] => 0
  | b :: bs => b.toNat + 256 * leNat bs

@[simp] theorem leBytes_length (width n : ℕ) : (leBytes width n).length = width := by
  induction width generalizing n with
  | zero => rfl
  | succ width ih => simp [leBytes, ih]

theorem leNat_lt (bs : Bytes) : leNat bs < 256 ^ bs.length := by
  induction bs with
  | nil => simp [leNat]
  | cons b bs ih =>
    have hb : b.toNat < 256 := UInt8.toNat_lt b
    rw [leNat, length_cons, pow_succ]
    omega

theorem leNat_leBytes (width n : ℕ) : leNat (leBytes width n) = n % 256 ^ width := by
  induction width generalizing n with
  | zero => simp [leBytes, leNat, mod_one]
  | succ width ih =>
    rw [leBytes, leNat, ih, pow_succ, mul_comm (256 ^ width) 256, mod_mul, UInt8.toNat_ofNat']

theorem leNat_leBytes_of_lt {width : ℕ} (h : n < 256 ^ width) : leNat (leBytes width n) = n := by
  rw [leNat_leBytes, mod_eq_of_lt h]

theorem leBytes_leNat (bs : Bytes) : leBytes bs.length (leNat bs) = bs := by
  induction bs with
  | nil => rfl
  | cons b bs ih =>
    have hb : b.toNat < 256 := UInt8.toNat_lt b
    have hdiv : (b.toNat + 256 * leNat bs) / 256 = leNat bs := by omega
    have hhead : UInt8.ofNat (b.toNat + 256 * leNat bs) = b := by
      apply UInt8.toNat_inj.mp
      rw [UInt8.toNat_ofNat']
      omega
    rw [leNat, length_cons, leBytes, hdiv, hhead, ih]

section

variable {low high : UInt32}

variable (hlow : low.toNat < 2 ^ 16) (hhigh : high.toNat < 2 ^ 16)
include hlow hhigh

theorem packed_toNat : (low ||| (high <<< 16)).toNat = high.toNat * 2 ^ 16 + low.toNat := by
  have hshift : (16 : UInt32).toNat % 32 = 16 := rfl
  rw [UInt32.toNat_or, UInt32.toNat_shiftLeft, hshift, shiftLeft_eq, mod_eq_of_lt (by omega),
    lor_comm, mul_comm, two_pow_add_eq_or_of_lt hlow]

theorem packed_low : (low ||| (high <<< 16)) &&& 0xffff = low := by
  have hmask : (0xffff : UInt32).toNat = 2 ^ 16 - 1 := rfl
  apply UInt32.toNat_inj.mp
  rw [UInt32.toNat_and, packed_toNat hlow hhigh, hmask, and_two_pow_sub_one_eq_mod]
  omega

theorem packed_high : (low ||| (high <<< 16)) >>> 16 = high := by
  have hshift : (16 : UInt32).toNat % 32 = 16 := rfl
  apply UInt32.toNat_inj.mp
  rw [UInt32.toNat_shiftRight, packed_toNat hlow hhigh, hshift, shiftRight_eq_div_pow]
  omega

end

/-!
## Codes that are read in one way

A code is self-delimiting on the values it is used for when a word followed by
anything determines both its value and what follows.
-/

variable {α β : Type*}

/-- Words of valid values determine their value and what is behind them. -/
def PrefixCode (valid : α → Prop) (encode : α → Bytes) : Prop :=
  ∀ ⦃a b : α⦄, valid a → valid b → ∀ ⦃r s : Bytes⦄, encode a ++ r = encode b ++ s → a = b ∧ r = s

namespace PrefixCode

variable {valid : α → Prop} {encode : α → Bytes}

theorem of_length {width : ℕ} (hlen : ∀ a, (encode a).length = width)
    (hinj : ∀ a b, valid a → valid b → encode a = encode b → a = b) :
    PrefixCode valid encode := by
  intro a b ha hb r s heq
  obtain ⟨hword, hrest⟩ := append_inj heq ((hlen a).trans (hlen b).symm)
  exact ⟨hinj a b ha hb hword, hrest⟩

theorem comap (h : PrefixCode valid encode) {f : β → α} (hf : Function.Injective f) :
    PrefixCode (fun b => valid (f b)) fun b => encode (f b) := by
  intro a b ha hb r s heq
  obtain ⟨hval, hrest⟩ := h ha hb heq
  exact ⟨hf hval, hrest⟩

theorem mono (h : PrefixCode valid encode) {valid' : α → Prop}
    (hvalid : ∀ a, valid' a → valid a) : PrefixCode valid' encode :=
  fun _ _ ha hb _ _ heq => h (hvalid _ ha) (hvalid _ hb) heq

variable {r s : Bytes}

theorem optional (h : PrefixCode valid encode) {a b : Option α} (hpres : a.isSome = b.isSome)
    (ha : ∀ x ∈ a, valid x) (hb : ∀ x ∈ b, valid x)
    (heq : a.elim [] encode ++ r = b.elim [] encode ++ s) : a = b ∧ r = s := by
  cases a with
  | none =>
    cases b with
    | none => exact ⟨rfl, heq⟩
    | some b => cases hpres
  | some a =>
    cases b with
    | none => cases hpres
    | some b =>
      obtain ⟨hval, hrest⟩ := h (ha a rfl) (hb b rfl) heq
      exact ⟨congrArg some hval, hrest⟩

theorem flatMap (h : PrefixCode valid encode) {as bs : List α} (hlen : as.length = bs.length)
    (has : ∀ a ∈ as, valid a) (hbs : ∀ b ∈ bs, valid b)
    (heq : as.flatMap encode ++ r = bs.flatMap encode ++ s) :
    as = bs ∧ r = s := by
  induction as generalizing bs with
  | nil =>
    have hnil : bs = [] := length_eq_zero_iff.mp hlen.symm
    subst hnil
    exact ⟨rfl, heq⟩
  | cons a as ih =>
    obtain ⟨b, bs, rfl⟩ := exists_cons_of_length_eq_add_one hlen.symm
    rw [forall_mem_cons] at has hbs
    simp only [flatMap_cons, append_assoc] at heq
    obtain ⟨rfl, hrest⟩ := h has.1 hbs.1 heq
    obtain ⟨rfl, hrs⟩ := ih (Nat.succ.inj hlen) has.2 hbs.2 hrest
    exact ⟨rfl, hrs⟩

end PrefixCode

variable (width : ℕ)

theorem prefixCode_leBytes : PrefixCode (· < 256 ^ width) (leBytes width) := by
  refine .of_length (leBytes_length width) fun a b ha hb heq => ?_
  rw [← leNat_leBytes_of_lt ha, heq, leNat_leBytes_of_lt hb]

theorem prefixCode_sized :
    PrefixCode (fun bytes : Bytes => bytes.length < 256 ^ width)
      fun bytes => leBytes width bytes.length ++ bytes := by
  intro a b ha hb r s heq
  simp only [append_assoc] at heq
  obtain ⟨hlen, hrest⟩ := prefixCode_leBytes width ha hb heq
  exact append_inj hrest hlen

theorem prefixCode_counted {valid : α → Prop} {encode : α → Bytes} (h : PrefixCode valid encode) :
    PrefixCode (fun as : List α => as.length < 256 ^ width ∧ ∀ a ∈ as, valid a)
      fun as => leBytes width as.length ++ as.flatMap encode := by
  intro as bs has hbs r s heq
  simp only [append_assoc] at heq
  obtain ⟨hlen, hrest⟩ := prefixCode_leBytes width has.1 hbs.1 heq
  exact h.flatMap hlen has.2 hbs.2 hrest

end CollideOScope
