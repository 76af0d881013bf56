import Mathlib.Data.List.Infix

/-!
# Timelines and retained windows

A timeline is a zipper over every version of a value: the past versions, the
present one and the future versions that an undo left behind.  It is never
forgotten.

A bounded undo/redo implementation retains two stacks, a window of the timeline
around the present.  `Retains` says that the undo stack is the newest part of
the past and the redo stack the nearest part of the future.
-/

namespace CollideOScope

open List

universe u

/-- All versions of a value: the past oldest first, the future nearest first. -/
structure Timeline (α : Type u) where
  past : List α
  present : α
  future : List α

namespace Timeline

variable {α : Type u}

def edit (z : Timeline α) (x : α) : Timeline α := { z with present := x }

/-- Put a version before the present and drop the future. -/
def record (z : Timeline α) (before : α) : Timeline α :=
  { z with past := z.past ++ [before], future := [] }

def undo (z : Timeline α) : Option (Timeline α) :=
  z.past.getLast?.map fun x =>
    { past := z.past.dropLast, present := x, future := z.present :: z.future }

def redo (z : Timeline α) : Option (Timeline α) :=
  z.future.head?.map fun x =>
    { past := z.past ++ [z.present], present := x, future := z.future.tail }

/-- The undo stack, front to back, is the newest part of the past, and the redo
stack, back to front, is the nearest part of the future. -/
structure Retains (z : Timeline α) (undoStack redoStack : List α) : Prop where
  undo_suffix : undoStack <:+ z.past
  redo_prefix : redoStack.reverse <+: z.future

variable {z : Timeline α} {us rs : List α} {x : α}

theorem Retains.edit (h : Retains z us rs) (x : α) : Retains (z.edit x) us rs :=
  ⟨h.undo_suffix, h.redo_prefix⟩

theorem Retains.record (h : Retains z us rs) (before : α) :
    Retains (z.record before) (us ++ [before]) [] := by
  obtain ⟨older, holder⟩ := h.undo_suffix
  refine ⟨⟨older, ?_⟩, nil_prefix⟩
  rw [← append_assoc, holder]
  rfl

theorem Retains.undo (h : Retains z (us ++ [x]) rs) :
    ∃ z', z.undo = some z' ∧ z'.present = x ∧ Retains z' us (rs ++ [z.present]) := by
  obtain ⟨older, holder⟩ := h.undo_suffix
  have hpast : z.past = (older ++ us) ++ [x] := by rw [← holder, append_assoc]
  refine ⟨⟨older ++ us, x, z.present :: z.future⟩, ?_, rfl, ?_⟩
  · rw [Timeline.undo, hpast, getLast?_concat, dropLast_concat]
    rfl
  · refine ⟨suffix_append older us, ?_⟩
    rw [reverse_append, reverse_singleton, singleton_append]
    exact (prefix_cons_inj _).mpr h.redo_prefix

theorem Retains.redo (h : Retains z us (rs ++ [x])) :
    ∃ z', z.redo = some z' ∧ z'.present = x ∧ Retains z' (us ++ [z.present]) rs := by
  obtain ⟨further, hfurther⟩ := h.redo_prefix
  rw [reverse_append, reverse_singleton, singleton_append, cons_append] at hfurther
  obtain ⟨older, holder⟩ := h.undo_suffix
  refine ⟨⟨z.past ++ [z.present], x, rs.reverse ++ further⟩, ?_, rfl, ?_⟩
  · rw [Timeline.redo, ← hfurther]
    rfl
  · refine ⟨⟨older, ?_⟩, prefix_append _ _⟩
    rw [← append_assoc, holder]

theorem Retains.drop_undo (h : Retains z (x :: us) rs) : Retains z us rs :=
  ⟨(suffix_cons x us).trans h.undo_suffix, h.redo_prefix⟩

theorem Retains.drop_redo (h : Retains z us (x :: rs)) : Retains z us rs := by
  refine ⟨h.undo_suffix, ?_⟩
  have hfurthest := h.redo_prefix
  rw [reverse_cons] at hfurthest
  exact (prefix_append _ _).trans hfurthest

end Timeline

end CollideOScope
