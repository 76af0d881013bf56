import Mathlib.Data.List.Infix
import Mathlib.Data.List.Flatten

/-!
# Logs of self-delimiting records

A frame code writes records so that no byte string starts with two different
records.  A log of a byte string is a list of records whose concatenated
encodings begin it, subject to an admissibility condition on the list that is
inherited by its initial segments.
-/

namespace CollideOScope

open List

universe u v

/-- A nonempty encoding of records in which the record at the front of a byte
string is determined by the byte string. -/
structure FrameCode (ρ : Type u) (β : Type v) where
  encode : ρ → List β
  encode_ne_nil : ∀ r, encode r ≠ []
  eq_of_begins : ∀ {r r' : ρ} {bytes : List β}, encode r <+: bytes → encode r' <+: bytes → r = r'

namespace FrameCode

variable {ρ : Type u} {β : Type v} (C : FrameCode ρ β)

/-- The file that holds exactly the given records. -/
def write (rs : List ρ) : List β := rs.flatMap C.encode

@[simp] theorem write_nil : C.write [] = [] := rfl

@[simp] theorem write_cons (r : ρ) (rs : List ρ) :
    C.write (r :: rs) = C.encode r ++ C.write rs := by
  simp [write]

@[simp] theorem write_append (rs rs' : List ρ) :
    C.write (rs ++ rs') = C.write rs ++ C.write rs' := by
  simp [write]

theorem write_eq_nil_iff {rs : List ρ} : C.write rs = [] ↔ rs = [] := by
  cases rs with
  | nil => simp
  | cons r rs => simp [C.encode_ne_nil r]

theorem comparable_of_begins {bytes : List β} {rs rs' : List ρ}
    (h : C.write rs <+: bytes) (h' : C.write rs' <+: bytes) :
    rs <+: rs' ∨ rs' <+: rs := by
  induction rs generalizing rs' bytes with
  | nil => exact .inl nil_prefix
  | cons r rs ih =>
    cases rs' with
    | nil => exact .inr nil_prefix
    | cons r' rs' =>
      rw [write_cons] at h h'
      have hr : C.encode r <+: bytes := (prefix_append _ _).trans h
      have hr' : C.encode r' <+: bytes := (prefix_append _ _).trans h'
      obtain rfl := C.eq_of_begins hr hr'
      obtain ⟨rest, rfl⟩ := hr
      rw [prefix_append_right_inj] at h h'
      rcases ih h h' with hle | hle
      · exact .inl (cons_prefix_cons.mpr ⟨rfl, hle⟩)
      · exact .inr (cons_prefix_cons.mpr ⟨rfl, hle⟩)

/-- An admissibility condition inherited by initial segments. -/
def Hereditary (P : List ρ → Prop) : Prop := ∀ ⦃rs rs' : List ρ⦄, rs' <+: rs → P rs → P rs'

/-- `rs` is an admissible list of records whose encodings begin `bytes`. -/
structure IsLog (P : List ρ → Prop) (bytes : List β) (rs : List ρ) : Prop where
  admissible : P rs
  begins : C.write rs <+: bytes

structure IsMaximalLog (P : List ρ → Prop) (bytes : List β) (rs : List ρ) :
    Prop extends IsLog C P bytes rs where
  stuck : ∀ r, ¬IsLog C P bytes (rs ++ [r])

variable {C} {P : List ρ → Prop} {bytes : List β} {rs rs' : List ρ}

theorem IsMaximalLog.contains (hP : Hereditary P)
    (hmax : C.IsMaximalLog P bytes rs) (hlog : C.IsLog P bytes rs') :
    rs' <+: rs := by
  rcases C.comparable_of_begins hmax.begins hlog.begins with hle | hle
  · obtain ⟨extra, rfl⟩ := hle
    cases extra with
    | nil => simp
    | cons r extra =>
      exfalso
      have hinit : rs ++ [r] <+: rs ++ r :: extra := by
        rw [prefix_append_right_inj]
        simp
      refine hmax.stuck r ⟨hP hinit hlog.admissible, ?_⟩
      have hbegins := hlog.begins
      obtain ⟨tail, htail⟩ := hinit
      rw [← htail, write_append] at hbegins
      exact (prefix_append _ _).trans hbegins
  · exact hle

theorem IsMaximalLog.length_le (hP : Hereditary P)
    (hmax : C.IsMaximalLog P bytes rs) (hlog : C.IsLog P bytes rs') :
    (C.write rs').length ≤ (C.write rs).length := by
  obtain ⟨extra, rfl⟩ := hmax.contains hP hlog
  simp

/-- The maximal log of a file that holds exactly `rs` is `rs`. -/
theorem IsMaximalLog.eq_of_write (hP : Hereditary P) (hrs : P rs)
    (hmax : C.IsMaximalLog P (C.write rs) rs') : rs' = rs := by
  have hself : C.IsLog P (C.write rs) rs := ⟨hrs, prefix_refl _⟩
  obtain ⟨extra, rfl⟩ := hmax.contains hP hself
  have hlen := hmax.begins.length_le
  rw [write_append, length_append] at hlen
  have hnil : C.write extra = [] := by
    apply eq_nil_of_length_eq_zero
    omega
  rw [C.write_eq_nil_iff.mp hnil, append_nil]

theorem IsMaximalLog.eq_of_torn (hP : Hereditary P) (hrs : P rs) {r : ρ}
    {torn : List β} (htorn : torn <+: C.encode r) (hlt : torn ≠ C.encode r)
    (hmax : C.IsMaximalLog P (C.write rs ++ torn) rs') : rs' = rs := by
  have hself : C.IsLog P (C.write rs ++ torn) rs := ⟨hrs, prefix_append _ _⟩
  obtain ⟨extra, rfl⟩ := hmax.contains hP hself
  cases extra with
  | nil => simp
  | cons r' extra =>
    exfalso
    have hbegins := hmax.begins
    rw [write_append, prefix_append_right_inj, write_cons] at hbegins
    have hr' : C.encode r' <+: torn := (prefix_append _ _).trans hbegins
    obtain rfl := C.eq_of_begins (hr'.trans htorn) (prefix_refl _)
    exact hlt (htorn.eq_of_length_le hr'.length_le)

end FrameCode

end CollideOScope
