import Mathlib.Data.List.Nodup
import Mathlib.Algebra.Order.BigOperators.Group.List
import Mathlib.Algebra.Order.Ring.Nat

/-!
# Tables

A table is a finite map that is listed entry by entry, with each key once.  It
can be counted and summed as well as looked up, and every update says what it
does to a lookup and to a sum.
-/

namespace CollideOScope

open List Function

universe u v

@[ext]
structure Table (κ : Type u) (α : Type v) where
  entries : List (κ × α)
  nodup : (entries.map Prod.fst).Nodup

namespace Table

variable {κ : Type u} {α : Type v}

def empty : Table κ α where
  entries := []
  nodup := nodup_nil

def total (table : Table κ α) (measure : α → ℕ) : ℕ :=
  (table.entries.map fun entry => measure entry.2).sum

def size (table : Table κ α) : ℕ := table.total fun _ => 1

def mapValues (table : Table κ α) (f : α → α) : Table κ α where
  entries := table.entries.map fun entry => (entry.1, f entry.2)
  nodup := by
    rw [map_map]
    exact table.nodup

@[simp]
theorem total_mapValues (table : Table κ α) (f : α → α) (measure : α → ℕ) :
    (table.mapValues f).total measure = table.total fun a => measure (f a) := by
  simp [total, mapValues, comp_def]

@[simp]
theorem size_mapValues (table : Table κ α) (f : α → α) : (table.mapValues f).size = table.size := by
  rw [size, total_mapValues, size]

variable [DecidableEq κ]

def find (table : Table κ α) (key : κ) : Option α :=
  table.entries.findSome? fun entry => if entry.1 = key then some entry.2 else none

variable {table : Table κ α} {key : κ} {a : α}

theorem mem_of_find (h : table.find key = some a) : (key, a) ∈ table.entries := by
  obtain ⟨⟨other, b⟩, hmem, hfound⟩ := exists_of_findSome?_eq_some h
  split_ifs at hfound with hkey
  cases hfound
  cases hkey
  exact hmem

theorem find_of_mem (h : (key, a) ∈ table.entries) : table.find key = some a := by
  obtain ⟨entries, hnd⟩ := table
  simp only at h
  induction entries with
  | nil => cases h
  | cons entry entries ih =>
    obtain ⟨other, b⟩ := entry
    simp only [map_cons, nodup_cons] at hnd
    simp only [find, findSome?_cons]
    obtain heq | hmem := mem_cons.mp h
    · cases heq
      simp
    · have hne : other ≠ key := by
        rintro rfl
        exact hnd.1 (mem_map.mpr ⟨_, hmem, rfl⟩)
      simp only [hne, if_false]
      exact ih hnd.2 hmem

theorem notMem_keys_of_find (h : table.find key = none) : key ∉ table.entries.map Prod.fst := by
  intro hkey
  obtain ⟨⟨other, a⟩, hmem, rfl⟩ := mem_map.mp hkey
  rw [find_of_mem hmem] at h
  cases h

@[simp]
theorem find_mapValues (table : Table κ α) (f : α → α) (key : κ) :
    (table.mapValues f).find key = (table.find key).map f := by
  simp only [find, mapValues, findSome?_map]
  induction table.entries with
  | nil => rfl
  | cons entry entries ih =>
    by_cases hkey : entry.1 = key
    · simp [hkey]
    · simpa [hkey] using ih

def adjust (table : Table κ α) (key : κ) (f : α → α) : Table κ α where
  entries := table.entries.map fun entry => (entry.1, if entry.1 = key then f entry.2 else entry.2)
  nodup := by
    rw [map_map]
    exact table.nodup

@[simp]
theorem find_adjust (table : Table κ α) (key other : κ) (f : α → α) :
    (table.adjust key f).find other =
      if other = key then (table.find other).map f else table.find other := by
  simp only [find, adjust, findSome?_map]
  induction table.entries with
  | nil => simp
  | cons entry entries ih =>
    by_cases hother : entry.1 = other
    · simp only [findSome?_cons, comp, hother, if_true]
      split_ifs <;> rfl
    · simpa [findSome?_cons, comp, hother] using ih

theorem adjust_adjust (table : Table κ α) (key : κ) (f g : α → α) :
    (table.adjust key f).adjust key g = table.adjust key fun a => g (f a) := by
  ext1
  simp only [adjust, map_map]
  apply map_congr_left
  intro entry _
  simp only [comp]
  split_ifs <;> rfl

variable {f : α → α}

theorem adjust_eq_self (h : ∀ a, table.find key = some a → f a = a) :
    table.adjust key f = table := by
  ext1
  simp only [adjust]
  conv_rhs => rw [← map_id table.entries]
  apply map_congr_left
  rintro ⟨other, b⟩ hmem
  by_cases hother : other = key
  · subst hother
    simp [h b (find_of_mem hmem)]
  · simp [hother]

def erase (table : Table κ α) (key : κ) : Table κ α where
  entries := table.entries.filter fun entry => entry.1 ≠ key
  nodup := table.nodup.sublist (filter_sublist.map _)

@[simp]
theorem find_erase (table : Table κ α) (key other : κ) :
    (table.erase key).find other = if other = key then none else table.find other := by
  simp only [find, erase]
  induction table.entries with
  | nil => simp
  | cons entry entries ih =>
    by_cases hkey : entry.1 = key
    · have hfilter : decide (entry.1 ≠ key) = false := by simp [hkey]
      rw [filter_cons_of_neg (by simp [hkey]), ih, findSome?_cons]
      by_cases hother : other = key
      · simp [hother]
      · have hne : entry.1 ≠ other := by
          rw [hkey]
          exact fun h => hother h.symm
        simp [hother, hne]
    · rw [filter_cons_of_pos (by simp [hkey]), findSome?_cons, findSome?_cons]
      by_cases hother : entry.1 = other
      · have hne : other ≠ key := fun h => hkey (hother.trans h)
        simp [hother, hne]
      · simpa [hother] using ih

/-- Set the value of a key; a new key is listed last. -/
def insert (table : Table κ α) (key : κ) (a : α) : Table κ α :=
  if h : table.find key = none then
    { entries := table.entries ++ [(key, a)]
      nodup := by
        rw [map_append]
        exact nodup_append.mpr ⟨table.nodup, nodup_singleton _, by
          intro x hx y hy
          cases mem_singleton.mp hy
          rintro rfl
          exact notMem_keys_of_find h hx⟩ }
  else table.adjust key fun _ => a

theorem insert_of_fresh (a : α) (h : table.find key = none) :
    (table.insert key a).entries = table.entries ++ [(key, a)] := by
  rw [insert, dif_pos h]

@[simp]
theorem find_insert (table : Table κ α) (key other : κ) (a : α) :
    (table.insert key a).find other = if other = key then some a else table.find other := by
  cases hkey : table.find key with
  | none =>
    have hents := insert_of_fresh a hkey
    simp only [find] at hkey ⊢
    rw [hents, findSome?_append]
    by_cases hother : other = key
    · simp [hother, hkey]
    · have hne : key ≠ other := fun h => hother h.symm
      simp [hother, hne]
  | some b =>
    have hsome : ¬table.find key = none := by simp [hkey]
    rw [insert, dif_neg hsome, find_adjust]
    split_ifs with hother
    · rw [hother, hkey]
      rfl
    · rfl

theorem total_insert (h : table.find key = none) (measure : α → ℕ) :
    (table.insert key a).total measure = table.total measure + measure a := by
  simp [total, insert_of_fresh a h]

theorem find_split (h : table.find key = some a) :
    ∃ before after, table.entries = before ++ (key, a) :: after ∧
      ∀ entry ∈ before ++ after, entry.1 ≠ key := by
  obtain ⟨before, after, hents⟩ := append_of_mem (mem_of_find h)
  refine ⟨before, after, hents, fun entry hent hkey => ?_⟩
  have hnd := table.nodup
  rw [hents, map_append, map_cons, nodup_middle, nodup_cons, ← map_append] at hnd
  exact hnd.1 (mem_map.mpr ⟨entry, hent, hkey⟩)

theorem total_adjust (h : table.find key = some a) (f : α → α) (measure : α → ℕ) :
    (table.adjust key f).total measure + measure a = table.total measure + measure (f a) := by
  obtain ⟨before, after, hents, hne⟩ := find_split h
  have hsame : ∀ entries ⊆ before ++ after, entries.map (fun entry =>
      (entry.1, if entry.1 = key then f entry.2 else entry.2)) = entries := by
    intro entries hsub
    refine (map_congr_left fun entry hent => ?_).trans (map_id _)
    rw [if_neg (hne entry (hsub hent)), id]
  simp only [total, adjust, hents, map_append, map_cons, hsame before (subset_append_left _ _),
    hsame after (subset_append_right _ _), if_true, sum_append, sum_cons]
  omega

variable {measure : α → ℕ}

theorem total_adjust_of_eq (table : Table κ α) (key : κ) (h : ∀ a, measure (f a) = measure a) :
    (table.adjust key f).total measure = table.total measure := by
  simp only [total, adjust, map_map]
  congr 1
  apply map_congr_left
  intro entry _
  simp only [comp]
  split_ifs
  · exact h entry.2
  · rfl

theorem total_erase (h : table.find key = some a) (measure : α → ℕ) :
    (table.erase key).total measure + measure a = table.total measure := by
  obtain ⟨before, after, hents, hne⟩ := find_split h
  have herased : (table.erase key).entries = before ++ after := by
    rw [show (table.erase key).entries = table.entries.filter (·.1 ≠ key) from rfl, hents,
      filter_append, filter_cons_of_neg (by simp), ← filter_append, filter_eq_self]
    exact fun entry hent => decide_eq_true (hne entry hent)
  simp only [total, herased, hents, map_append, map_cons, sum_append, sum_cons]
  omega

theorem total_erase_le (table : Table κ α) (key : κ) (measure : α → ℕ) :
    (table.erase key).total measure ≤ table.total measure := by
  exact (filter_sublist.map _).sum_le_sum fun _ _ => Nat.zero_le _

theorem measure_le_total (h : table.find key = some a) (measure : α → ℕ) :
    measure a ≤ table.total measure := by
  have := total_erase h measure
  omega

theorem total_congr {other : α → ℕ} (h : ∀ key a, table.find key = some a → measure a = other a) :
    table.total measure = table.total other := by
  rw [total, total]
  congr 1
  apply map_congr_left
  rintro ⟨key, a⟩ hmem
  exact h key a (find_of_mem hmem)

theorem total_eq_zero (h : ∀ key a, table.find key = some a → measure a = 0) :
    table.total measure = 0 := by
  have hzero : table.total measure = table.total fun _ => 0 := total_congr h
  rw [hzero]
  simp [total]

theorem total_eq_single (h : table.find key = some a)
    (hrest : ∀ other b, table.find other = some b → other ≠ key →
      measure b = 0) : table.total measure = measure a := by
  have herase := total_erase h measure
  have hzero : (table.erase key).total measure = 0 := by
    apply total_eq_zero
    intro other b hother
    rw [find_erase] at hother
    split_ifs at hother with hne
    exact hrest other b hother hne
  omega

theorem size_insert (a : α) (h : table.find key = none) :
    (table.insert key a).size = table.size + 1 :=
  total_insert h _

@[simp]
theorem size_adjust (table : Table κ α) (key : κ) (f : α → α) :
    (table.adjust key f).size = table.size := by
  simp [size, total, adjust, comp_def]

theorem size_erase_le (table : Table κ α) (key : κ) : (table.erase key).size ≤ table.size :=
  table.total_erase_le key _

end Table

end CollideOScope
