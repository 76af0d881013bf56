import Mathlib.Data.List.Nodup

/-!
# Writing items found by key

A loop takes the items of one list in turn, finds the first item of the same key
in a second list, and writes it in place.  A write may fail, and then the loop
stops with what has been written so far.
-/

namespace CollideOScope

open List

variable {α κ : Type*} [DecidableEq κ]

/-- The loop; `write` gives nothing where the write cannot be made at all, and
else whether the loop goes on, and the written item. -/
def writeEach (key : α → κ) (write : α → α → Option (Bool × α)) :
    List α → List α → Option (Bool × List α)
  | [], items => some (true, items)
  | given :: rest, items =>
    match items.find? fun item => key item = key given with
    | none => none
    | some item =>
      match write given item with
      | none => none
      | some (goesOn, written) =>
        let items := items.set
          (items.findIdx fun item => key item = key given) written
        if goesOn then writeEach key write rest items else some (false, items)

def writeAlong (write : α → α → Option (Bool × α)) : List α → List α → Option (Bool × List α)
  | given :: rest, item :: items =>
    match write given item with
    | none => none
    | some (goesOn, written) =>
      if goesOn then (writeAlong write rest items).map fun result => (result.1, written :: result.2)
      else some (false, written :: items)
  | _, items => some (true, items)

variable {key : α → κ} {write : α → α → Option (Bool × α)}

variable {items done : List α} {item : α} {k : κ}

section

variable (hdone : k ∉ done.map key) (hitem : key item = k)
include hdone hitem

theorem find_at : (done ++ item :: items).find? (fun item => key item = k) = some item := by
  have hnone : done.find? (fun item => key item = k) = none := by
    rw [find?_eq_none]
    intro other hother
    simpa using fun heq => hdone (mem_map.mpr ⟨other, hother, heq⟩)
  rw [find?_append, hnone, Option.none_or, find?_cons_of_pos (by simpa using hitem)]

theorem findIdx_at : (done ++ item :: items).findIdx (fun item => key item = k) = done.length := by
  have hlt : ¬done.findIdx (fun item => key item = k) < done.length := by
    rw [findIdx_lt_length]
    rintro ⟨other, hother, heq⟩
    exact hdone (mem_map.mpr ⟨other, hother, by simpa using heq⟩)
  rw [findIdx_append, if_neg hlt, findIdx_cons]
  simp [hitem]

theorem set_at {written : α} :
    (done ++ item :: items).set ((done ++ item :: items).findIdx fun item => key item = k) written =
      (done ++ [written]) ++ items := by
  simp [findIdx_at hdone hitem]

end

variable {givens : List α}

section

variable
  (hkey : ∀ given item goesOn written, write given item = some (goesOn, written) →
    key written = key item)
  (hsame : List.Forall₂ (fun given item => key given = key item) givens items)
include hkey hsame

/-- With the same distinct keys in the same order, the loop walks along both
lists; `done` are the items it has passed. -/
theorem writeEach_append (hnd : ((done ++ items).map key).Nodup) :
    writeEach key write givens (done ++ items) =
      (writeAlong write givens items).map fun result => (result.1, done ++ result.2) := by
  induction hsame generalizing done with
  | nil => simp [writeEach, writeAlong]
  | cons hhead htail ih =>
    rename_i given item rest items
    have hfresh : key given ∉ done.map key := by
      intro hmem
      rw [map_append, nodup_append] at hnd
      exact hnd.2.2 _ hmem _ (mem_map.mpr ⟨item, mem_cons_self, rfl⟩) hhead
    rw [writeEach, find_at hfresh hhead.symm, writeAlong]
    cases hwrite : write given item with
    | none => simp [hwrite]
    | some result =>
      obtain ⟨goesOn, written⟩ := result
      have hsteady := hkey given item goesOn written hwrite
      have hrest : ((done ++ [written] ++ items).map key).Nodup := by simpa [hsteady] using hnd
      simp only [hwrite]
      rw [set_at hfresh hhead.symm]
      cases goesOn with
      | false => simp
      | true =>
        rw [if_pos rfl, ih hrest, if_pos rfl, Option.map_map]
        congr 1
        funext result
        simp

theorem writeEach_eq_writeAlong (hnd : (items.map key).Nodup) :
    writeEach key write givens items = writeAlong write givens items := by
  have halong : writeEach key write givens ([] ++ items) =
      (writeAlong write givens items).map fun result =>
        (result.1, [] ++ result.2) :=
    writeEach_append hkey hsame hnd
  simpa using halong

end

/-- The loop that changes the first item of each given key; a key that no item
has is passed over. -/
def modifyEach (key : α → κ) (change : α → α) (keys : List κ) (items : List α) : List α :=
  keys.foldl (fun items k => items.modify (items.findIdx fun item => key item = k) change) items

section

variable {key : α → κ} {change : α → α}

/-- With distinct keys, the loop over the keys of a list changes each item of
it; `done` are the items it has passed. -/
theorem modifyEach_append (hkey : ∀ item, key (change item) = key item)
    {done items : List α} (hnd : ((done ++ items).map key).Nodup) :
    modifyEach key change (items.map key) (done ++ items) = done ++ items.map change := by
  induction items generalizing done with
  | nil => simp [modifyEach]
  | cons item items ih =>
    have hfresh : key item ∉ done.map key := by
      intro hmem
      rw [map_append, nodup_append] at hnd
      exact hnd.2.2 _ hmem _ (mem_map.mpr ⟨item, mem_cons_self, rfl⟩) rfl
    have hidx : (done ++ item :: items).findIdx (fun other => key other = key item) = done.length :=
      findIdx_at hfresh rfl
    have hrest : ((done ++ [change item] ++ items).map key).Nodup := by simpa [hkey] using hnd
    have hstep := ih hrest
    simp only [modifyEach, map_cons, foldl_cons] at hstep ⊢
    rw [hidx, modify_eq_take_cons_drop (by simp)]
    simpa using hstep

theorem modifyEach_eq_map (hkey : ∀ item, key (change item) = key item)
    {items : List α} (hnd : (items.map key).Nodup) :
    modifyEach key change (items.map key) items = items.map change := by
  have happ : modifyEach key change (items.map key) ([] ++ items) =
      [] ++ items.map change := modifyEach_append hkey hnd
  simpa using happ

end

/-- A relation between the items of three lists of one length. -/
def Forall₃ (R : α → α → α → Prop) : List α → List α → List α → Prop
  | [], [], [] => True
  | a :: as, b :: bs, c :: cs => R a b c ∧ Forall₃ R as bs cs
  | _, _, _ => False

end CollideOScope
