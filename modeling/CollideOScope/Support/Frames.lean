import Mathlib.Data.List.Flatten
import Mathlib.Tactic.Common

/-!
# Interleaved frames

A stream of frames of one fixed width is stored as one flat list of samples.
The file relates positions in the flat list to positions in the list of frames,
and cuts a flat list into its whole frames.
-/

namespace CollideOScope

open List

universe u

variable {α : Type u} {width : ℕ} {frames : List (List α)}

def Framed (width : ℕ) (frames : List (List α)) : Prop := ∀ frame ∈ frames, frame.length = width

namespace Framed

theorem nil : Framed width ([] : List (List α)) := by
  intro frame hframe
  cases hframe

variable (h : Framed width frames)
include h

theorem append {rest : List (List α)} (hrest : Framed width rest) :
    Framed width (frames ++ rest) := by
  intro frame hframe
  obtain hfst | hsnd := mem_append.mp hframe
  · exact h frame hfst
  · exact hrest frame hsnd

theorem drop (k : ℕ) : Framed width (frames.drop k) :=
  fun frame hframe => h frame (mem_of_mem_drop hframe)

theorem length_flatten : frames.flatten.length = frames.length * width := by
  induction frames with
  | nil => simp
  | cons frame frames ih =>
    rw [flatten_cons, length_append, h frame mem_cons_self,
      ih fun other hother => h other (mem_cons_of_mem _ hother),
      length_cons, Nat.add_mul, Nat.one_mul, Nat.add_comm]

/-- Dropping the samples of `k` frames drops `k` frames. -/
theorem drop_flatten (k : ℕ) : frames.flatten.drop (k * width) = (frames.drop k).flatten := by
  induction k generalizing frames with
  | zero => simp
  | succ k ih =>
    cases frames with
    | nil => simp
    | cons frame frames =>
      have hframe := h frame mem_cons_self
      have hrest : Framed width frames := fun other hother => h other (mem_cons_of_mem _ hother)
      rw [flatten_cons, drop_succ_cons, Nat.add_mul, Nat.one_mul, Nat.add_comm, ← hframe,
        drop_length_add_append, hframe, ih hrest]

end Framed

/-- The whole frames at the front of a list of samples, `fuel` at most. -/
def wholeFrames (width : ℕ) : ℕ → List α → List (List α)
  | 0, _ => []
  | fuel + 1, samples =>
    if samples.length < width then []
    else samples.take width ::
      wholeFrames width fuel (samples.drop width)

theorem framed_wholeFrames (width fuel : ℕ) (samples : List α) :
    Framed width (wholeFrames width fuel samples) := by
  induction fuel generalizing samples with
  | zero => exact .nil
  | succ fuel ih =>
    rw [wholeFrames]
    split_ifs with hpartial
    · exact .nil
    · intro frame hframe
      obtain rfl | hrest := mem_cons.mp hframe
      · rw [length_take]
        omega
      · exact ih _ frame hrest

end CollideOScope
