import Mathlib.Data.List.Nodup
import Mathlib.Data.List.Perm.Basic

/-!
# Lists under edits

Items of a list are moved and removed, and each position is followed to where
its item stands.  Positions past the end are followed as if the list went on.
A loop keeps, changes or drops each item in place.
-/

namespace CollideOScope

open List

variable {α : Type}

/-- `insert(to, remove(from))`. -/
def moveItem (source dest : ℕ) (xs : List α) : List α :=
  match xs[source]? with
  | none => xs
  | some x => (xs.eraseIdx source).insertIdx dest x

def afterMove (source dest i : ℕ) : ℕ :=
  if i = source then dest
  else if source < dest ∧ source < i ∧ i ≤ dest then i - 1
  else if dest < source ∧ dest ≤ i ∧ i < source then i + 1
  else i

section

variable {xs : List α} {source dest : ℕ}

theorem moveItem_of_lt (h : source < xs.length) :
    moveItem source dest xs = (xs.eraseIdx source).insertIdx dest xs[source] := by
  rw [moveItem, getElem?_eq_getElem h]

variable (hsource : source < xs.length) (hdest : dest < xs.length)
include hsource hdest

theorem length_moveItem : (moveItem source dest xs).length = xs.length := by
  have herase : (xs.eraseIdx source).length = xs.length - 1 := length_eraseIdx_of_lt hsource
  rw [moveItem_of_lt hsource, length_insertIdx, herase]
  split_ifs <;> omega

theorem getElem?_moveItem (i : ℕ) :
    (moveItem source dest xs)[afterMove source dest i]? = xs[i]? := by
  have herase : (xs.eraseIdx source).length = xs.length - 1 := length_eraseIdx_of_lt hsource
  rw [moveItem_of_lt hsource, afterMove, getElem?_insertIdx]
  simp only [getElem?_eraseIdx, herase]
  by_cases hi : i = source
  · have hlast : dest ≤ xs.length - 1 := by omega
    subst hi
    simp [hlast]
  · grind

theorem perm_moveItem : (moveItem source dest xs).Perm xs := by
  have hlast : dest ≤ (xs.eraseIdx source).length := by
    rw [length_eraseIdx_of_lt hsource]
    omega
  rw [moveItem_of_lt hsource]
  exact (perm_insertIdx _ _ hlast).trans (getElem_cons_eraseIdx_perm hsource)

theorem moveItem_moveItem : moveItem dest source (moveItem source dest xs) = xs := by
  have herase : (xs.eraseIdx source).length = xs.length - 1 := length_eraseIdx_of_lt hsource
  have hmoved : (moveItem source dest xs)[dest]? = some xs[source] := by
    rw [moveItem_of_lt hsource, getElem?_insertIdx_self, herase, if_pos (by omega)]
  rw [moveItem, hmoved]
  simp only
  rw [moveItem_of_lt hsource, eraseIdx_insertIdx_self, insertIdx_eraseIdx_getElem hsource]

end

def afterRemove (removed i : ℕ) : Option ℕ :=
  if i = removed then none else some (if removed < i then i - 1 else i)

variable {removed : ℕ} {xs : List α}

theorem getElem?_eraseIdx_afterRemove {i j : ℕ} (h : afterRemove removed i = some j) :
    (xs.eraseIdx removed)[j]? = xs[i]? := by
  rw [afterRemove] at h
  split_ifs at h with hi hlt
  · cases h
    rw [getElem?_eraseIdx, if_neg (by omega)]
    congr 1
    omega
  · cases h
    rw [getElem?_eraseIdx, if_pos (by omega)]

theorem afterRemove_eq_none {i : ℕ} : afterRemove removed i = none ↔ i = removed := by
  simp [afterRemove]

/-- `Vec::retain_mut`, with a closure that may panic. -/
def retainMut (f : α → Option (Option α)) : List α → Option (List α)
  | [] => some []
  | x :: rest => do
    let kept ← f x
    let rest ← retainMut f rest
    return kept.toList ++ rest

theorem retainMut_eq {f : α → Option (Option α)} {g : α → Option α}
    (h : ∀ x ∈ xs, f x = some (g x)) :
    retainMut f xs = some (xs.filterMap g) := by
  induction xs with
  | nil => rfl
  | cons x xs ih =>
    have htail : retainMut f xs = some (xs.filterMap g) := ih fun y hy => h y (mem_cons_of_mem _ hy)
    simp only [retainMut, h x mem_cons_self, htail, Option.bind_eq_bind,
      Option.bind_some, Option.pure_def]
    cases hx : g x with
    | none | some y => simp [hx]

theorem mapM_eq_filterMap {β : Type} {f : α → Option β}
    (h : ∀ x ∈ xs, (f x).isSome) : xs.mapM f = some (xs.filterMap f) := by
  induction xs with
  | nil => rfl
  | cons x xs ih =>
    obtain ⟨y, hy⟩ := Option.isSome_iff_exists.mp (h x mem_cons_self)
    have htail := ih fun z hz => h z (mem_cons_of_mem _ hz)
    simp [mapM_cons, hy, htail]

end CollideOScope

/-!
## Runs of edits of a list

Items of a list are moved, removed and appended.
-/

namespace CollideOScope

theorem afterMove_self (source i : ℕ) : afterMove source source i = i := by
  rw [afterMove]
  split_ifs <;> omega

theorem afterMove_afterMove (source dest i : ℕ) :
    afterMove source dest (afterMove dest source i) = i := by
  simp only [afterMove]
  split_ifs <;> omega

theorem afterRemove_injective {removed i i' j : ℕ} (h : afterRemove removed i = some j)
    (h' : afterRemove removed i' = some j) : i = i' := by
  simp only [afterRemove] at h h'
  split_ifs at h h' <;> simp only [Option.some.injEq] at h h' <;> omega

theorem exists_afterRemove (removed j : ℕ) : ∃ i, afterRemove removed i = some j := by
  by_cases hj : j < removed
  · refine ⟨j, ?_⟩
    rw [afterRemove, if_neg (by omega), if_neg (by omega)]
  · refine ⟨j + 1, ?_⟩
    rw [afterRemove, if_neg (by omega), if_pos (by omega), Nat.add_sub_cancel]

inductive ListEdit (α : Type)
  | move (source dest : ℕ)
  | remove (index : ℕ)
  | append (item : α)

namespace ListEdit

variable {α : Type} {capacity : ℕ}

/-- The edit is one of a list that holds at most `capacity` items. -/
def Valid (capacity : ℕ) (items : List α) : ListEdit α → Prop
  | move source dest => source < items.length ∧ dest < items.length
  | remove index => index < items.length
  | append _ => items.length < capacity

def apply (items : List α) : ListEdit α → List α
  | move source dest => moveItem source dest items
  | remove index => items.eraseIdx index
  | append item => items ++ [item]

def track (i : ℕ) : ListEdit α → Option ℕ
  | move source dest => some (afterMove source dest i)
  | remove index => afterRemove index i
  | append _ => some i

def appended : ListEdit α → Option α
  | append item => some item
  | _ => none

section

variable {items : List α} {edit : ListEdit α} {i j : ℕ} {x : α}

theorem length_apply_le (hvalid : edit.Valid capacity items) (hlen : items.length ≤ capacity) :
    (edit.apply items).length ≤ capacity := by
  cases edit with
  | move source dest =>
    rw [apply, length_moveItem hvalid.1 hvalid.2]
    exact hlen
  | remove index => exact Nat.le_trans (List.eraseIdx_sublist _ _).length_le hlen
  | append item =>
    rw [apply, List.length_append]
    exact hvalid

theorem getElem?_apply (hvalid : edit.Valid capacity items)
    (hi : items[i]? = some x) (htrack : edit.track i = some j) :
    (edit.apply items)[j]? = some x := by
  cases edit with
  | move source dest =>
    cases htrack
    exact (getElem?_moveItem hvalid.1 hvalid.2 i).trans hi
  | remove index => exact (getElem?_eraseIdx_afterRemove htrack).trans hi
  | append item =>
    cases htrack
    obtain ⟨hlt, -⟩ := getElem?_eq_some_iff.mp hi
    exact (List.getElem?_append_left hlt).trans hi

theorem notMem_apply (hnd : items.Nodup) (hi : items[i]? = some x)
    (htrack : edit.track i = none) : x ∉ edit.apply items := by
  cases edit with
  | move source dest | append item => cases htrack
  | remove index =>
    obtain rfl := afterRemove_eq_none.mp htrack
    obtain ⟨hlt, rfl⟩ := getElem?_eq_some_iff.mp hi
    have := Classical.decEq α
    rw [apply, ← hnd.erase_getElem i hlt]
    exact hnd.not_mem_erase

theorem mem_apply (hvalid : edit.Valid capacity items)
    (h : x ∈ edit.apply items) : x ∈ items ∨ edit.appended = some x := by
  cases edit with
  | move source dest => exact .inl ((perm_moveItem hvalid.1 hvalid.2).mem_iff.mp h)
  | remove index => exact .inl ((List.eraseIdx_sublist _ _).subset h)
  | append item =>
    rw [apply, List.mem_append, List.mem_singleton] at h
    exact h.imp_right fun heq => congrArg some heq.symm

theorem track_injective {i' : ℕ} (h : edit.track i = some j)
    (h' : edit.track i' = some j) : i = i' := by
  cases edit with
  | move source dest =>
    have hsame : afterMove source dest i = afterMove source dest i' :=
      Option.some.inj (h.trans h'.symm)
    rw [← afterMove_afterMove dest source i, hsame, afterMove_afterMove]
  | remove index => exact afterRemove_injective h h'
  | append item => exact Option.some.inj (h.trans h'.symm)

theorem exists_track (edit : ListEdit α) (j : ℕ) : ∃ i, edit.track i = some j := by
  cases edit with
  | move source dest =>
    exact ⟨afterMove dest source j, congrArg some (afterMove_afterMove source dest j)⟩
  | remove index => exact exists_afterRemove index j
  | append item => exact ⟨j, rfl⟩

theorem nodup_apply (hvalid : edit.Valid capacity items) {later : List α}
    (h : (items ++ (edit.appended.toList ++ later)).Nodup) :
    (edit.apply items ++ later).Nodup := by
  cases edit with
  | move source dest => exact ((perm_moveItem hvalid.1 hvalid.2).append_right later).nodup_iff.mpr h
  | remove index => exact h.sublist ((List.eraseIdx_sublist _ _).append_right later)
  | append item => simpa [apply, appended] using h

end

def ValidRun (capacity : ℕ) : List α → List (ListEdit α) → Prop
  | _, [] => True
  | items, edit :: rest => edit.Valid capacity items ∧ ValidRun capacity (edit.apply items) rest

def applyAll (items : List α) (edits : List (ListEdit α)) : List α := edits.foldl apply items

def trackAll : List (ListEdit α) → ℕ → Option ℕ
  | [], i => some i
  | edit :: rest, i => (edit.track i).bind (trackAll rest)

def appendedAll (edits : List (ListEdit α)) : List α :=
  edits.flatMap fun edit => edit.appended.toList

section

variable {items : List α} {edits : List (ListEdit α)} {i j : ℕ} {x : α}

theorem applyAll_cons (edit : ListEdit α) (rest : List (ListEdit α)) :
    applyAll items (edit :: rest) = applyAll (edit.apply items) rest := rfl

theorem appendedAll_cons (edit : ListEdit α) (rest : List (ListEdit α)) :
    appendedAll (edit :: rest) = edit.appended.toList ++ appendedAll rest := rfl

/-! Runs that only append. -/

theorem applyAll_appends (items later : List α) :
    applyAll items (later.map append) = items ++ later := by
  induction later generalizing items with
  | nil => simp [applyAll]
  | cons item rest ih =>
    rw [List.map_cons, applyAll_cons, ih, apply, List.append_assoc]
    rfl

theorem appendedAll_appends (later : List α) : appendedAll (later.map append) = later := by
  induction later with
  | nil => rfl
  | cons item rest ih =>
    rw [List.map_cons, appendedAll_cons, ih]
    rfl

variable {later : List α}

theorem validRun_appends (h : items.length + later.length ≤ capacity) :
    ValidRun capacity items (later.map append) := by
  induction later generalizing items with
  | nil => trivial
  | cons item rest ih =>
    rw [List.length_cons] at h
    refine ⟨?_, ih ?_⟩
    · rw [Valid]
      omega
    · rw [apply, List.length_append, List.length_singleton]
      omega

/-! Any run. -/

section

variable (hvalid : ValidRun capacity items edits)
include hvalid

theorem mem_applyAll (h : x ∈ applyAll items edits) : x ∈ items ∨ x ∈ appendedAll edits := by
  induction edits generalizing items with
  | nil => exact .inl h
  | cons edit rest ih =>
    rw [appendedAll_cons, List.mem_append]
    rcases ih hvalid.2 h with hpre | hlater
    · rcases mem_apply hvalid.1 hpre with hitem | happ
      · exact .inl hitem
      · exact .inr (.inl (Option.mem_toList.mpr happ))
    · exact .inr (.inr hlater)

theorem nodup_applyAll_append (h : (items ++ (appendedAll edits ++ later)).Nodup) :
    (applyAll items edits ++ later).Nodup := by
  induction edits generalizing items with
  | nil => exact h
  | cons edit rest ih =>
    rw [appendedAll_cons, List.append_assoc] at h
    exact ih hvalid.2 (nodup_apply hvalid.1 h)

theorem length_applyAll_le (hlen : items.length ≤ capacity) :
    (applyAll items edits).length ≤ capacity := by
  induction edits generalizing items with
  | nil => exact hlen
  | cons edit rest ih => exact ih hvalid.2 (length_apply_le hvalid.1 hlen)

end

theorem applyAll_append (items : List α) (edits later : List (ListEdit α)) :
    applyAll items (edits ++ later) = applyAll (applyAll items edits) later :=
  List.foldl_append

theorem appendedAll_append (edits later : List (ListEdit α)) :
    appendedAll (edits ++ later) = appendedAll edits ++ appendedAll later :=
  List.flatMap_append

theorem validRun_append {later : List (ListEdit α)} :
    ValidRun capacity items (edits ++ later) ↔
      ValidRun capacity items edits ∧ ValidRun capacity (applyAll items edits) later := by
  induction edits generalizing items with
  | nil => simp [ValidRun, applyAll]
  | cons edit rest ih => rw [List.cons_append, ValidRun, ValidRun, ih, applyAll_cons, and_assoc]

theorem getElem?_applyAll (hvalid : ValidRun capacity items edits)
    (hi : items[i]? = some x) (htrack : trackAll edits i = some j) :
    (applyAll items edits)[j]? = some x := by
  induction edits generalizing items i with
  | nil =>
    cases htrack
    exact hi
  | cons edit rest ih =>
    obtain ⟨k, hk, hrest⟩ := Option.bind_eq_some_iff.mp htrack
    exact ih hvalid.2 (getElem?_apply hvalid.1 hi hk) hrest

theorem notMem_applyAll (hvalid : ValidRun capacity items edits)
    (hnd : (items ++ appendedAll edits).Nodup)
    (hi : items[i]? = some x) (htrack : trackAll edits i = none) :
    x ∉ applyAll items edits := by
  induction edits generalizing items i with
  | nil => cases htrack
  | cons edit rest ih =>
    rw [applyAll_cons]
    cases hk : edit.track i with
    | none =>
      intro hmem
      have hgone := notMem_apply hnd.of_append_left hi hk
      rcases mem_applyAll hvalid.2 hmem with hback | hlater
      · exact hgone hback
      · exact List.disjoint_of_nodup_append hnd (List.mem_of_getElem? hi)
          (List.mem_append_right _ hlater)
    | some k =>
      rw [trackAll, hk, Option.bind_some] at htrack
      exact ih hvalid.2 (nodup_apply hvalid.1 hnd) (getElem?_apply hvalid.1 hi hk) htrack

theorem trackAll_injective {i' : ℕ} (h : trackAll edits i = some j)
    (h' : trackAll edits i' = some j) : i = i' := by
  induction edits generalizing i i' with
  | nil => exact Option.some.inj (h.trans h'.symm)
  | cons edit rest ih =>
    obtain ⟨k, hk, hrest⟩ := Option.bind_eq_some_iff.mp h
    obtain ⟨k', hk', hrest'⟩ := Option.bind_eq_some_iff.mp h'
    obtain rfl := ih hrest hrest'
    exact track_injective hk hk'

theorem exists_trackAll (edits : List (ListEdit α)) (j : ℕ) : ∃ i, trackAll edits i = some j := by
  induction edits with
  | nil => exact ⟨j, rfl⟩
  | cons edit rest ih =>
    obtain ⟨k, hk⟩ := ih
    obtain ⟨i, hi⟩ := exists_track edit k
    refine ⟨i, ?_⟩
    rw [trackAll, hi, Option.bind_some, hk]

end

end ListEdit

end CollideOScope
