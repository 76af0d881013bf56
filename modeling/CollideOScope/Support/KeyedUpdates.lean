import CollideOScope.Support.KeyedWrites

/-!
# Updating items found by key

A loop takes the given items in turn, finds the first item of the same key and
updates it in place.  A given item whose key no item has is passed over, and a
refused update does not stop the loop.
-/

namespace CollideOScope

open Function List

variable {α β κ : Type*} [DecidableEq κ]

/-- The loop; `write` gives nothing where the write cannot be made at all, and
else its verdict and the written item. -/
def updateEach (key : α → κ) (keyOf : β → κ) (write : β → α → Option (Bool × α)) :
    List β → List α → Option (List Bool × List α)
  | [], items => some ([], items)
  | given :: rest, items =>
    match items.find? fun item => key item = keyOf given with
    | none =>
      (updateEach key keyOf write rest items).map fun result => (false :: result.1, result.2)
    | some item =>
      match write given item with
      | none => none
      | some (verdict, written) =>
        let items := items.set
          (items.findIdx fun item => key item = keyOf given) written
        (updateEach key keyOf write rest items).map fun result => (verdict :: result.1, result.2)

def verdictOn (key : α → κ) (keyOf : β → κ) (write : β → α → Option (Bool × α))
    (items : List α) (given : β) : Bool :=
  match items.find? fun item => key item = keyOf given with
  | none => false
  | some item => ((write given item).map Prod.fst).getD false

def updatedBy (key : α → κ) (keyOf : β → κ) (write : β → α → Option (Bool × α))
    (givens : List β) (item : α) : α :=
  match givens.find? fun given => keyOf given = key item with
  | none => item
  | some given => ((write given item).map Prod.snd).getD item

variable {key : α → κ} {keyOf : β → κ} {write : β → α → Option (Bool × α)}

theorem set_findIdx {items : List α} {item written : α} {k : κ} (hnd : (items.map key).Nodup)
    (hfind : items.find? (fun item => key item = k) = some item) :
    items.set (items.findIdx fun item => key item = k) written =
      items.map fun other => if key other = k then written else other := by
  have hitem : key item = k := by simpa using find?_some hfind
  obtain ⟨done, rest, rfl⟩ := append_of_mem (mem_of_find?_eq_some hfind)
  have hsplit : ∀ other ∈ done ++ rest, key other ≠ k := by
    intro other hother heq
    have hperm : ((item :: (done ++ rest)).map key).Nodup := (perm_middle.map key).nodup_iff.mp hnd
    rw [map_cons, nodup_cons] at hperm
    exact hperm.1 (mem_map.mpr ⟨other, hother, heq.trans hitem.symm⟩)
  have hkept : ∀ others : List α, (∀ other ∈ others, key other ≠ k) →
      others.map (fun other => if key other = k then written else other) = others := by
    intro others hothers
    calc
      others.map (fun other => if key other = k then written else other) = others.map id :=
        map_congr_left fun other hother => if_neg (hothers other hother)
      _ = others := map_id others
  have hdone : k ∉ done.map key := by
    intro hmem
    obtain ⟨other, hother, heq⟩ := mem_map.mp hmem
    exact hsplit other (mem_append_left _ hother) heq
  rw [set_at hdone hitem, map_append, map_cons, if_pos hitem,
    hkept done fun other hother => hsplit other (mem_append_left _ hother),
    hkept rest fun other hother => hsplit other (mem_append_right _ hother)]
  simp

section

variable {items : List α} {givens : List β} {given : β} {item : α}

theorem updatedBy_cons_of_ne (h : keyOf given ≠ key item) :
    updatedBy key keyOf write (given :: givens) item = updatedBy key keyOf write givens item := by
  rw [updatedBy, find?_cons_of_neg (by simpa using h), updatedBy]

variable {written : α}

theorem updatedBy_cons_of_eq {verdict : Bool} (h : keyOf given = key item)
    (hwrite : write given item = some (verdict, written)) :
    updatedBy key keyOf write (given :: givens) item = written := by
  simp [updatedBy, h, hwrite]

theorem updatedBy_of_fresh (h : key item ∉ givens.map keyOf) :
    updatedBy key keyOf write givens item = item := by
  have hnone : givens.find? (fun given => keyOf given = key item) = none := by
    rw [find?_eq_none]
    intro given hgiven
    simpa using fun heq => h (mem_map.mpr ⟨given, hgiven, heq⟩)
  rw [updatedBy, hnone]

theorem verdictOn_replaced {k : κ} (hwrit : key written = k) (hgiven : keyOf given ≠ k) :
    verdictOn key keyOf write (items.map fun other => if key other = k then written else other)
        given =
      verdictOn key keyOf write items given := by
  have hkey : ∀ other, key (if key other = k then written else other) = key other := by
    intro other
    split
    · next heq => rw [hwrit, heq]
    · rfl
  have hfind : (items.map fun other =>
      if key other = k then written else other).find?
        (fun item => key item = keyOf given) =
      items.find? fun item => key item = keyOf given := by
    rw [find?_map]
    simp only [comp_def, hkey]
    cases hfound : items.find? fun item => key item = keyOf given with
    | none => rfl
    | some item =>
      have hitem : key item = keyOf given := by simpa using find?_some hfound
      rw [Option.map_some, if_neg (hitem ▸ hgiven)]
  rw [verdictOn, hfind, verdictOn]

theorem updateEach_eq
    (hkey : ∀ given item verdict written,
      write given item = some (verdict, written) → key written = key item)
    (hgivens : (givens.map keyOf).Nodup) (hitems : (items.map key).Nodup)
    (hwrite : ∀ given ∈ givens, ∀ item ∈ items, key item = keyOf given →
      ∃ result, write given item = some result) :
    updateEach key keyOf write givens items =
      some (givens.map (verdictOn key keyOf write items),
        items.map (updatedBy key keyOf write givens)) := by
  induction givens generalizing items with
  | nil =>
    have hsame : items.map (updatedBy key keyOf write []) = items :=
      (map_congr_left fun item _ => rfl).trans (map_id items)
    rw [updateEach, hsame]
    rfl
  | cons given rest ih =>
    rw [map_cons, nodup_cons] at hgivens
    obtain ⟨hfresh, hrest⟩ := hgivens
    have hother : ∀ next ∈ rest, keyOf next ≠ keyOf given :=
      fun next hnext heq => hfresh (mem_map.mpr ⟨next, hnext, heq⟩)
    rw [updateEach]
    cases hfind : items.find? fun item => key item = keyOf given with
    | none =>
      have hmiss : ∀ item ∈ items, keyOf given ≠ key item := by
        intro item hitem heq
        simpa [heq] using find?_eq_none.mp hfind item hitem
      have hloop := ih hrest hitems fun next hnext => hwrite next (mem_cons_of_mem _ hnext)
      have hupdated :
          items.map (updatedBy key keyOf write (given :: rest)) =
            items.map (updatedBy key keyOf write rest) :=
        map_congr_left fun item hitem => updatedBy_cons_of_ne (hmiss item hitem)
      have hverdict : verdictOn key keyOf write items given = false := by rw [verdictOn, hfind]
      simp [hloop, hupdated, hverdict]
    | some item =>
      have hmem := mem_of_find?_eq_some hfind
      have hitem : key item = keyOf given := by simpa using find?_some hfind
      obtain ⟨⟨verdict, written⟩, hwrit⟩ := hwrite given mem_cons_self item hmem hitem
      have hsame : key written = keyOf given := (hkey given item verdict written hwrit).trans hitem
      have hverdict : verdictOn key keyOf write items given = verdict := by
        simp [verdictOn, hfind, hwrit]
      have hkeys : (items.map fun other =>
          if key other = keyOf given then written else other).map key = items.map key := by
        rw [map_map]
        refine map_congr_left fun other _ => ?_
        by_cases heq : key other = keyOf given
        · simp [heq, hsame]
        · simp [heq]
      have hwriteRest : ∀ next ∈ rest, ∀ other ∈ items.map (fun other =>
          if key other = keyOf given then written else other),
          key other = keyOf next →
          ∃ result, write next other = some result := by
        intro next hnext other hmember hfound
        obtain ⟨old, hold, rfl⟩ := mem_map.mp hmember
        by_cases heq : key old = keyOf given
        · rw [if_pos heq, hsame] at hfound
          exact absurd hfound.symm (hother next hnext)
        · rw [if_neg heq] at hfound ⊢
          exact hwrite next (mem_cons_of_mem _ hnext) old hold hfound
      have hloop := ih hrest (hkeys ▸ hitems) hwriteRest
      have hverdicts : rest.map (verdictOn key keyOf write (items.map
          fun other =>
            if key other = keyOf given then written else other)) =
            rest.map (verdictOn key keyOf write items) :=
        map_congr_left fun next hnext => verdictOn_replaced hsame (hother next hnext)
      have hupdated : (items.map fun other =>
          if key other = keyOf given then written else other).map
            (updatedBy key keyOf write rest) =
          items.map (updatedBy key keyOf write (given :: rest)) := by
        rw [map_map]
        refine map_congr_left fun other hmember => ?_
        by_cases heq : key other = keyOf given
        · have hthis : other = item :=
            inj_on_of_nodup_map hitems hmember hmem (heq.trans hitem.symm)
          have hkept : updatedBy key keyOf write rest written = written :=
            updatedBy_of_fresh (hsame ▸ hfresh)
          rw [comp_apply, if_pos heq, hkept, hthis, updatedBy_cons_of_eq hitem.symm hwrit]
        · rw [comp_apply, if_neg heq, updatedBy_cons_of_ne fun h => heq h.symm]
      simp [hwrit, set_findIdx hitems hfind, hloop, hverdict, hverdicts, hupdated]

end

end CollideOScope
