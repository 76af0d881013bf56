import Mathlib.Data.List.Nodup

/-!
# Records with optional fields

A record is written as the list of the fields that are present, each with its
name.  When the names of a record are distinct, every field is found under its
name, present or not.
-/

namespace CollideOScope

open Prod List

variable {κ V : Type*}

def presentFields : List (κ × Option V) → List (κ × V)
  | [] => []
  | (name, some value) :: rest => (name, value) :: presentFields rest
  | (_, none) :: rest => presentFields rest

theorem presentFields_append (slots slots' : List (κ × Option V)) :
    presentFields (slots ++ slots') = presentFields slots ++ presentFields slots' := by
  induction slots with
  | nil => rfl
  | cons slot rest ih =>
    obtain ⟨name, _ | value⟩ := slot
    · exact ih
    · exact congrArg ((name, value) :: ·) ih

theorem names_presentFields (slots : List (κ × Option V)) :
    ((presentFields slots).map fst).Sublist (slots.map fst) := by
  induction slots with
  | nil => exact .slnil
  | cons slot rest ih =>
    obtain ⟨name, _ | value⟩ := slot
    · exact ih.cons name
    · exact ih.cons_cons name

theorem lookup_presentFields [DecidableEq κ] {slots : List (κ × Option V)}
    (hnd : (slots.map fst).Nodup) {name : κ} {value : Option V} (hmem : (name, value) ∈ slots) :
    (presentFields slots).lookup name = value := by
  induction slots with
  | nil => cases hmem
  | cons slot rest ih =>
    rw [map_cons, nodup_cons] at hnd
    obtain ⟨hfresh, hrest⟩ := hnd
    rcases mem_cons.mp hmem with heq | hrestmem
    · subst heq
      cases value with
      | some value => rw [presentFields, lookup_cons, beq_self_eq_true]
      | none =>
        rw [presentFields, lookup_eq_none_iff]
        intro field hfield
        have hname : field.1 ∈ rest.map fst :=
          (names_presentFields rest).subset (mem_map_of_mem hfield)
        exact bne_iff_ne.mpr (ne_of_mem_of_not_mem hname hfresh).symm
    · have hname : name ∈ rest.map fst := mem_map_of_mem (f := fst) hrestmem
      obtain ⟨other, _ | first⟩ := slot
      · exact ih hrest hrestmem
      · have hne : name ≠ other := ne_of_mem_of_not_mem hname hfresh
        rw [presentFields, lookup_cons, beq_false_of_ne hne]
        exact ih hrest hrestmem

end CollideOScope
