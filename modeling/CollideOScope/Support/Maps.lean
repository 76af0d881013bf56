import Mathlib.Data.List.Nodup

/-!
# Maps filled by insertions

A map is a function to options.  Entries are inserted one by one, and a later
entry replaces an earlier one of its key.
-/

namespace CollideOScope

open List Function

variable {κ β : Type*} [DecidableEq κ]

def insertAll (map : κ → Option β) (entries : List (κ × β)) : κ → Option β :=
  entries.foldl (fun map entry => update map entry.1 (some entry.2)) map

theorem insertAll_append (map : κ → Option β) (first rest : List (κ × β)) :
    insertAll map (first ++ rest) = insertAll (insertAll map first) rest :=
  foldl_append

variable {entries : List (κ × β)} {key : κ} {map : κ → Option β}

theorem insertAll_of_notMem (h : key ∉ entries.map Prod.fst) :
    insertAll map entries key = map key := by
  induction entries generalizing map with
  | nil => rfl
  | cons entry rest ih =>
    rw [map_cons, mem_cons, not_or] at h
    have hrest : insertAll (update map entry.1 (some entry.2)) rest
        key = update map entry.1 (some entry.2) key := ih h.2
    rw [update_of_ne h.1] at hrest
    exact hrest

variable {value : β}

theorem insertAll_of_mem (hnd : (entries.map Prod.fst).Nodup)
    (h : (key, value) ∈ entries) : insertAll map entries key = some value := by
  induction entries generalizing map with
  | nil => cases h
  | cons entry rest ih =>
    rw [map_cons, nodup_cons] at hnd
    rcases mem_cons.mp h with rfl | h
    · have hrest : insertAll (update map key (some value)) rest key =
          update map key (some value) key :=
        insertAll_of_notMem hnd.1
      rw [update_self] at hrest
      exact hrest
    · exact ih hnd.2 h

theorem insertAll_eq_some_iff (hnd : (entries.map Prod.fst).Nodup) :
    insertAll (fun _ => none) entries key = some value ↔ (key, value) ∈ entries := by
  constructor
  · intro hval
    by_cases hmem : key ∈ entries.map Prod.fst
    · obtain ⟨entry, hent, rfl⟩ := mem_map.mp hmem
      rw [insertAll_of_mem hnd hent] at hval
      cases hval
      exact hent
    · rw [insertAll_of_notMem hmem] at hval
      cases hval
  · exact insertAll_of_mem hnd

end CollideOScope
