import Mathlib.Data.List.Basic

/-!
# Sample and hold

Values arrive at positions of an integer timeline.  The held value at a
position is the newest one that arrived there or before.  Resampling reads the
held value at every position of a span; a new sample extends the resampled span
by repetitions of the held value and by its own value.
-/

namespace CollideOScope

open List

universe u

variable {β : Type u} {samples : List (ℕ × β)} {value : β} {n k : ℕ}

/-- The newest value that arrived at a position or before. -/
def heldAt (samples : List (ℕ × β)) (k : ℕ) : Option β :=
  ((samples.filter fun sample => sample.1 ≤ k).getLast?).map (·.2)

/-- The held value at every position from `first` to `last`. -/
def resample (samples : List (ℕ × β)) (first last : ℕ) : List (Option β) :=
  (range' first (last + 1 - first)).map (heldAt samples)

theorem heldAt_append_of_lt (h : k < n) :
    heldAt (samples ++ [(n, value)]) k = heldAt samples k := by
  rw [heldAt, filter_append, filter_singleton,
    decide_eq_false (Nat.not_le.mpr h), cond_false, append_nil]
  rfl

theorem heldAt_append_of_le (h : n ≤ k) : heldAt (samples ++ [(n, value)]) k = some value := by
  rw [heldAt, filter_append, filter_singleton, decide_eq_true h,
    cond_true, getLast?_concat, Option.map_some]

variable {first last : ℕ}

theorem resample_hold (hfst : first ≤ n + 1) (hlast : n ≤ last) :
    resample (samples ++ [(n, value)]) first last =
      resample (samples ++ [(n, value)]) first n ++ replicate (last - n) (some value) := by
  have hsplit : range' first (last + 1 - first) =
      range' first (n + 1 - first) ++ range' (n + 1) (last - n) := by
    have happ := range'_append_1 (s := first) (m := n + 1 - first) (n := last - n)
    rw [Nat.add_sub_of_le hfst] at happ
    rw [happ]
    congr 1
    omega
  rw [resample, hsplit, map_append]
  congr 1
  rw [eq_replicate_iff]
  refine ⟨by rw [length_map, length_range'], fun held hheld => ?_⟩
  obtain ⟨k, hk, rfl⟩ := mem_map.mp hheld
  obtain ⟨hle, -⟩ := mem_range'_1.mp hk
  exact heldAt_append_of_le (by omega)

theorem resample_append (hfst : first ≤ n) (hlast : last + 1 = n) :
    resample (samples ++ [(n, value)]) first n = resample samples first last ++ [some value] := by
  have hsplit : range' first (n + 1 - first) = range' first (last + 1 - first) ++ [n] := by
    rw [show n + 1 - first = last + 1 - first + 1 by omega, range'_concat]
    congr 2
    omega
  rw [resample, hsplit, map_append]
  congr 1
  · apply map_congr_left
    intro k hk
    obtain ⟨-, hlt⟩ := mem_range'_1.mp hk
    exact heldAt_append_of_lt (by omega)
  · rw [map_singleton, heldAt_append_of_le (Nat.le_refl n)]

end CollideOScope
