import CollideOScope.Morph.SlotSteps

/-!
# A slot follows a history

A slot that was captured against a stack follows every history of the stack edit
by edit, and is at every moment one that was captured against the stack of that
moment.  Two slots that agree on the topology of their racks go on agreeing.
-/

namespace CollideOScope.Morph

open Composition ListEdit Option List

variable {W M L C : Type}

structure CapturedAgainst (stack : List StableLayerId) (slot : MorphSlot W M L C) : Prop where
  distinct : DistinctRacks slot
  positions : (slot.layers.map LayerMorphSnapshot.position).Nodup
  bounded : ∀ layer ∈ slot.layers, layer.position < stack.length
  racks : ∀ racks, slot.layerRacks = some racks → racks.length ≤ stack.length

section

variable {slot slot' : MorphSlot W M L C} {stack stack' : List StableLayerId}
  {fate : SavedLayerPosition → Fate} {track : ℕ → Option ℕ}

theorem DistinctRacks.of_follows (h : DistinctRacks slot) (hfol : SlotFollows fate track slot slot')
    (hreach : ∀ j, ∃ i, track i = some j) : DistinctRacks slot' where
  masterRack := by
    intro rack' hrack'
    rw [hfol.masterRack] at hrack'
    obtain ⟨rack, hrack, rfl⟩ := map_eq_some_iff.mp hrack'
    exact distinctNodes_followRack (h.masterRack rack hrack)
  layerRacks := by
    intro racks' hracks' rack' hrack'
    obtain ⟨racks, hracks, hfollow⟩ := hfol.layerRacks racks' hracks'
    obtain ⟨j, hj⟩ := mem_iff_getElem?.mp hrack'
    obtain ⟨i, hi⟩ := hreach j
    rw [hfollow i j hi] at hj
    obtain ⟨rack, hrack, rfl⟩ := map_eq_some_iff.mp hj
    exact distinctNodes_followRack (h.layerRacks racks hracks rack (mem_of_getElem? hrack))

theorem positions_of_follows (hfol : SlotFollows fate track slot slot') :
    slot'.layers.map LayerMorphSnapshot.position =
      (slot.layers.map LayerMorphSnapshot.position).filterMap track := by
  rw [hfol.layers, map_filterMap, filterMap_map]
  congr 1
  funext layer
  simp [LayerMorphSnapshot.follow, Function.comp_def]

theorem CapturedAgainst.of_follows (h : CapturedAgainst stack slot)
    (hfol : SlotFollows fate track slot slot')
    (hreach : ∀ j, ∃ i, track i = some j)
    (hinj : ∀ i i' j, track i = some j → track i' = some j → i = i')
    (hstack : ∀ i j layerId, stack[i]? = some layerId → track i = some j →
      stack'[j]? = some layerId) : CapturedAgainst stack' slot' where
  distinct := h.distinct.of_follows hfol hreach
  positions := by
    rw [positions_of_follows hfol]
    exact h.positions.filterMap fun i i' j hi hi' => hinj i i' j hi hi'
  bounded := by
    intro layer' hlayer'
    rw [hfol.layers] at hlayer'
    obtain ⟨layer, hlayer, hfollow⟩ := mem_filterMap.mp hlayer'
    obtain ⟨position, htrack, rfl⟩ := Option.map_eq_some_iff.mp hfollow
    have hnamed := List.getElem?_eq_getElem (h.bounded layer hlayer)
    exact (List.getElem?_eq_some_iff.mp (hstack _ _ _ hnamed htrack)).1
  racks := by
    intro racks' hracks'
    obtain ⟨racks, hracks, hfollow⟩ := hfol.layerRacks racks' hracks'
    by_contra hlong
    obtain ⟨i, hi⟩ := hreach stack'.length
    have hrack' := List.getElem?_eq_getElem (Nat.lt_of_not_le hlong)
    rw [hfollow i _ hi] at hrack'
    obtain ⟨rack, hrack, -⟩ := Option.map_eq_some_iff.mp hrack'
    have hlt := (List.getElem?_eq_some_iff.mp hrack).1
    have hnamed := List.getElem?_eq_getElem (hlt.trans_le (h.racks racks hracks))
    have hpast := (List.getElem?_eq_some_iff.mp (hstack _ _ _ hnamed hi)).1
    exact absurd hpast (lt_irrefl _)

end

def fateAll : List StackEdit → SavedLayerPosition → Fate
  | [], position => .stands position
  | edit :: rest, position => (editFate edit position).andThen (fateAll rest)

section

variable {slot : MorphSlot W M L C} {stack : List StableLayerId} {edits : List StackEdit}

theorem remapAll_append (slot : MorphSlot W M L C) (edits later : List StackEdit) :
    slot.remapAll (edits ++ later) = (slot.remapAll edits).remapAll later :=
  foldl_append

theorem remapAll_appends (slot : MorphSlot W M L C) (layers : List StableLayerId) :
    slot.remapAll (layers.map append) = slot := by
  induction layers with
  | nil => rfl
  | cons layerId rest ih => exact ih

variable {capacity : ℕ}

theorem CapturedAgainst.remap {edit : StackEdit}
    (h : CapturedAgainst stack slot) (hvalid : edit.Valid capacity stack) :
    CapturedAgainst (edit.apply stack) (slot.remap edit) :=
  h.of_follows (slotFollows_remap h.distinct edit) (exists_track edit)
    (fun _ _ _ => track_injective) fun _ _ _ => getElem?_apply hvalid

theorem slotFollows_remapAll (h : CapturedAgainst stack slot)
    (hvalid : ValidRun capacity stack edits) :
    SlotFollows (fateAll edits) (trackAll edits) slot (slot.remapAll edits) := by
  induction edits generalizing stack slot with
  | nil => exact slotFollows_refl slot
  | cons edit rest ih =>
    exact (slotFollows_remap h.distinct edit).trans (ih (h.remap hvalid.1) hvalid.2)

theorem CapturedAgainst.remapAll (h : CapturedAgainst stack slot)
    (hvalid : ValidRun capacity stack edits) :
    CapturedAgainst (applyAll stack edits) (slot.remapAll edits) :=
  h.of_follows (slotFollows_remapAll h hvalid) (exists_trackAll edits)
    (fun _ _ _ => trackAll_injective) fun _ _ _ => getElem?_applyAll hvalid

theorem fateAll_spec (hvalid : ValidRun (maxSavedLayerPosition + 1) stack edits)
    (hlen : stack.length ≤ maxSavedLayerPosition + 1) (position : SavedLayerPosition) :
    (∃ next, fateAll edits position = .stands next ∧ trackAll edits position.val = some next.val) ∨
      ∃ last, fateAll edits position = .lost last ∧ trackAll edits position.val = none := by
  induction edits generalizing stack position with
  | nil => exact .inl ⟨position, rfl, rfl⟩
  | cons edit rest ih =>
    simp only [fateAll, trackAll]
    rcases editFate_spec hvalid.1 hlen position with ⟨next, hfate, htrack⟩ | ⟨hfate, htrack⟩
    · rw [hfate, htrack]
      exact ih hvalid.2 (length_apply_le hvalid.1 hlen) next
    · rw [hfate, htrack]
      exact .inr ⟨position, rfl, rfl⟩

end

def RackListsAgree (as bs : List SavedVisualRack) : Prop :=
  as.length = bs.length ∧ ∀ (i : ℕ) a b, as[i]? = some a → bs[i]? = some b →
    racksShareTopology a b = true

structure RacksAgree (a b : MorphSlot W M L C) : Prop where
  masterRack : Rel (fun a b => racksShareTopology a b = true) a.masterRack b.masterRack
  layerRacks : Rel RackListsAgree a.layerRacks b.layerRacks

section

variable {a b : MorphSlot W M L C} {as bs : List SavedVisualRack}

theorem RackListsAgree.map_followRack (h : RackListsAgree as bs)
    (fate : SavedLayerPosition → Fate) :
    RackListsAgree (as.map (followRack fate)) (bs.map (followRack fate)) := by
  refine ⟨by simpa using h.1, ?_⟩
  intro i a' b' ha' hb'
  rw [getElem?_map] at ha' hb'
  obtain ⟨a, ha, rfl⟩ := map_eq_some_iff.mp ha'
  obtain ⟨b, hb, rfl⟩ := map_eq_some_iff.mp hb'
  exact racksShareTopology_followRack (h.2 i a b ha hb)

theorem RackListsAgree.moveItem (h : RackListsAgree as bs) {source dest : ℕ}
    (hsrc : source < as.length) (hdest : dest < as.length) :
    RackListsAgree (moveItem source dest as) (moveItem source dest bs) := by
  have hsource' : source < bs.length := h.1 ▸ hsrc
  have hdest' : dest < bs.length := h.1 ▸ hdest
  refine ⟨?_, ?_⟩
  · rw [length_moveItem hsrc hdest, length_moveItem hsource' hdest', h.1]
  · intro j a b ha hb
    rw [← afterMove_afterMove source dest j, getElem?_moveItem hsrc hdest] at ha
    rw [← afterMove_afterMove source dest j, getElem?_moveItem hsource' hdest'] at hb
    exact h.2 _ a b ha hb

theorem RackListsAgree.eraseIdx (h : RackListsAgree as bs) {removed : ℕ}
    (hrem : removed < as.length) :
    RackListsAgree (as.eraseIdx removed) (bs.eraseIdx removed) := by
  refine ⟨?_, ?_⟩
  · rw [length_eraseIdx_of_lt hrem, length_eraseIdx_of_lt (h.1 ▸ hrem), h.1]
  · intro j a b ha hb
    obtain ⟨i, hi⟩ := exists_afterRemove removed j
    rw [getElem?_eraseIdx_afterRemove hi] at ha hb
    exact h.2 i a b ha hb

theorem masterRacksAgree_follow {fate : SavedLayerPosition → Fate} {a b : Option SavedVisualRack}
    (h : Rel (fun a b => racksShareTopology a b = true) a b) :
    Rel (fun a b => racksShareTopology a b = true)
      (a.map (followRack fate)) (b.map (followRack fate)) := by
  cases h with
  | none => exact .none
  | some hshare => exact .some (racksShareTopology_followRack hshare)

theorem rel_bind {α : Type} {R : α → α → Prop} {x y : Option α}
    {f g : α → Option α} (h : Rel R x y)
    (hstep : ∀ a b, x = some a → y = some b → R a b →
      Rel R (f a) (g b)) : Rel R (x.bind f) (y.bind g) := by
  cases h with
  | none => exact .none
  | some hrel => exact hstep _ _ rfl rfl hrel

theorem layerRacksAgree_remap (ha : DistinctRacks a) (hb : DistinctRacks b)
    (h : Rel RackListsAgree a.layerRacks b.layerRacks) (edit : StackEdit) :
    Rel RackListsAgree (a.remap edit).layerRacks (b.remap edit).layerRacks := by
  cases edit with
  | append layerId => exact h
  | move source dest =>
    simp only [MorphSlot.remap, MorphSlot.remapLayersAfterMove]
    split_ifs with hsame
    · exact h
    · apply rel_bind h
      intro as bs has hbs hlists
      have hmapped := hlists.map_followRack (Fate.afterMove source dest)
      rw [ha.map_layerRacks has fun rack hrack =>
          remapSavedRackRoutesAfterMove_eq hrack source dest,
        hb.map_layerRacks hbs fun rack hrack =>
          remapSavedRackRoutesAfterMove_eq hrack source dest, ← hmapped.1]
      split_ifs with hbds
      · exact .some (hmapped.moveItem hbds.1 hbds.2)
      · exact .none
  | remove removed =>
    apply rel_bind h
    intro as bs has hbs hlists
    have hmapped := hlists.map_followRack (Fate.afterRemove removed)
    dsimp only
    rw [ha.map_layerRacks has fun rack hrack =>
        remapSavedRackRoutesAfterRemove_eq hrack removed,
      hb.map_layerRacks hbs fun rack hrack =>
        remapSavedRackRoutesAfterRemove_eq hrack removed, ← hmapped.1]
    split_ifs with hbds
    · exact .some (hmapped.eraseIdx hbds)
    · exact .none

theorem RacksAgree.remap (h : RacksAgree a b) (ha : DistinctRacks a)
    (hb : DistinctRacks b) (edit : StackEdit) :
    RacksAgree (a.remap edit) (b.remap edit) where
  masterRack := by
    rw [(slotFollows_remap ha edit).masterRack, (slotFollows_remap hb edit).masterRack]
    exact masterRacksAgree_follow h.masterRack
  layerRacks := layerRacksAgree_remap ha hb h.layerRacks edit

theorem RacksAgree.remapAll {stack : List StableLayerId} {capacity : ℕ}
    {edits : List StackEdit} (h : RacksAgree a b) (ha : CapturedAgainst stack a)
    (hb : CapturedAgainst stack b) (hvalid : ValidRun capacity stack edits) :
    RacksAgree (a.remapAll edits) (b.remapAll edits) := by
  induction edits generalizing stack a b with
  | nil => exact h
  | cons edit rest ih =>
    exact ih (h.remap ha.distinct hb.distinct edit) (ha.remap hvalid.1) (hb.remap hvalid.1) hvalid.2

end

end CollideOScope.Morph

/-!
## A morph slot keeps pointing at the same layers

Between any two moments of a history, the snapshots and layer racks of a slot go
where their layers go, and a route names the current position of the layer it
named, or is a tombstone once the layer is gone.
-/

namespace CollideOScope.Morph

open Composition ListEdit

variable {W M L C : Type}

/-- Between two moments of a history, a slot keeps naming the same layers.
`fate` says where a saved position has gone. -/
structure KeepsLayers (before after : List StableLayerId)
    (fate : SavedLayerPosition → Fate) (slot slot' : MorphSlot W M L C) :
    Prop where
  stands : ∀ (position : SavedLayerPosition) layerId,
    before[position.val]? = some layerId → layerId ∈ after →
      ∃ next, fate position = .stands next ∧ after[next.val]? = some layerId
  lost : ∀ (position : SavedLayerPosition) layerId,
    before[position.val]? = some layerId → layerId ∉ after → ∃ last, fate position = .lost last
  gardenMatteRoute : slot'.gardenMatteRoute = gardenMatteKind.follow fate slot.gardenMatteRoute
  gardenMotionRoute : slot'.gardenMotionRoute = gardenMotionKind.follow fate slot.gardenMotionRoute
  scoreLoopDriver : slot'.scoreLoopDriver = scoreDriverKind.follow fate slot.scoreLoopDriver
  masterMotion : slot'.masterMotion = slot.masterMotion.map (MotionConfig.follow fate)
  masterRack : slot'.masterRack = slot.masterRack.map (followRack fate)
  snapshots : slot'.layers.map (fun layer =>
      (after[layer.position]?, layer.motion, layer.values)) =
    (slot.layers.map fun layer =>
      (before[layer.position]?, layer.motion.map (MotionConfig.follow fate),
        layer.values)).filter fun named => named.1.any (· ∈ after)
  positions : (slot'.layers.map LayerMorphSnapshot.position).Nodup
  layerRacks : ∀ racks', slot'.layerRacks = some racks' →
    racks'.length ≤ after.length ∧ ∃ racks, slot.layerRacks = some racks ∧
      ∀ layerId rack',
        (∃ j : ℕ, after[j]? = some layerId ∧ racks'[j]? = some rack') ↔
          layerId ∈ after ∧ ∃ (i : ℕ) (rack : SavedVisualRack),
            before[i]? = some layerId ∧ racks[i]? = some rack ∧ rack' = followRack fate rack

section

variable {slot : MorphSlot W M L C} {stack : List StableLayerId} {edits : List StackEdit}

variable {capacity : ℕ}

theorem mem_applyAll_iff {i : ℕ} {layerId : StableLayerId} (hvalid : ValidRun capacity stack edits)
    (hidentities : (stack ++ appendedAll edits).Nodup) (hi : stack[i]? = some layerId) :
    layerId ∈ applyAll stack edits ↔
      ∃ j, trackAll edits i = some j ∧ (applyAll stack edits)[j]? = some layerId := by
  constructor
  · intro hmem
    cases htrack : trackAll edits i with
    | none => exact absurd hmem (notMem_applyAll hvalid hidentities hi htrack)
    | some j => exact ⟨j, rfl, getElem?_applyAll hvalid hi htrack⟩
  · rintro ⟨j, -, hj⟩
    exact List.mem_of_getElem? hj

section

variable (h : CapturedAgainst stack slot) (hvalid : ValidRun capacity stack edits)
  (hidentities : (stack ++ appendedAll edits).Nodup)
include h hvalid hidentities

theorem snapshots_remapAll :
    (slot.remapAll edits).layers.map (fun layer =>
        ((applyAll stack edits)[layer.position]?, layer.motion, layer.values)) =
      (slot.layers.map fun layer =>
        (stack[layer.position]?,
          layer.motion.map (MotionConfig.follow (fateAll edits)),
          layer.values)).filter fun named => named.1.any (· ∈ applyAll stack edits) := by
  rw [(slotFollows_remapAll h hvalid).layers, List.map_filterMap,
    List.filter_map, ← List.filterMap_eq_filter, List.map_filterMap]
  apply List.filterMap_congr
  intro layer hlayer
  have hnamed := List.getElem?_eq_getElem (h.bounded layer hlayer)
  cases htrack : trackAll edits layer.position with
  | none =>
    have hgone := notMem_applyAll hvalid hidentities hnamed htrack
    simp [LayerMorphSnapshot.follow, htrack, hnamed, Option.guard, hgone]
  | some j =>
    have hstands := getElem?_applyAll hvalid hnamed htrack
    have hthere := List.mem_of_getElem? hstands
    simp [LayerMorphSnapshot.follow, htrack, hnamed, Option.guard, hthere, hstands]

theorem layerRacks_remapAll {racks' : List SavedVisualRack}
    (hracks' : (slot.remapAll edits).layerRacks = some racks') :
    racks'.length ≤ (applyAll stack edits).length ∧
      ∃ racks, slot.layerRacks = some racks ∧
        ∀ layerId rack',
          (∃ j : ℕ, (applyAll stack edits)[j]? = some layerId ∧ racks'[j]? = some rack') ↔
            layerId ∈ applyAll stack edits ∧ ∃ (i : ℕ) (rack : SavedVisualRack),
              stack[i]? = some layerId ∧ racks[i]? = some rack ∧
                rack' = followRack (fateAll edits) rack := by
  obtain ⟨racks, hracks, hfol⟩ := (slotFollows_remapAll h hvalid).layerRacks racks' hracks'
  refine ⟨(h.remapAll hvalid).racks racks' hracks', racks, hracks, ?_⟩
  intro layerId rack'
  constructor
  · rintro ⟨j, hj, hrack'⟩
    obtain ⟨i, hi⟩ := exists_trackAll edits j
    rw [hfol i j hi] at hrack'
    obtain ⟨rack, hrack, rfl⟩ := Option.map_eq_some_iff.mp hrack'
    have hlt := (getElem?_eq_some_iff.mp hrack).1
    have hnamed := List.getElem?_eq_getElem (hlt.trans_le (h.racks racks hracks))
    have hsame := getElem?_applyAll hvalid hnamed hi
    obtain rfl := Option.some.inj (hsame.symm.trans hj)
    exact ⟨List.mem_of_getElem? hj, i, rack, hnamed, hrack, rfl⟩
  · rintro ⟨hmem, i, rack, hi, hrack, rfl⟩
    obtain ⟨j, htrack, hj⟩ := (mem_applyAll_iff hvalid hidentities hi).mp hmem
    refine ⟨j, hj, ?_⟩
    rw [hfol i j htrack, hrack]
    rfl

end

theorem keepsLayers_remapAll (h : CapturedAgainst stack slot)
    (hlen : stack.length ≤ maxSavedLayerPosition + 1)
    (hvalid : ValidRun (maxSavedLayerPosition + 1) stack edits)
    (hidentities : (stack ++ appendedAll edits).Nodup) :
    KeepsLayers stack (applyAll stack edits) (fateAll edits) slot (slot.remapAll edits) where
  stands := by
    intro position layerId hnamed hmem
    obtain ⟨j, htrack, hj⟩ := (mem_applyAll_iff hvalid hidentities hnamed).mp hmem
    rcases fateAll_spec hvalid hlen position with ⟨next, hfate, hnext⟩ | ⟨last, hfate, hnone⟩
    · obtain rfl := Option.some.inj (hnext.symm.trans htrack)
      exact ⟨next, hfate, hj⟩
    · rw [hnone] at htrack
      cases htrack
  lost := by
    intro position layerId hnamed hgone
    rcases fateAll_spec hvalid hlen position with ⟨next, hfate, hnext⟩ | ⟨last, hfate, hnone⟩
    · have hstands := getElem?_applyAll hvalid hnamed hnext
      exact absurd (List.mem_of_getElem? hstands) hgone
    · exact ⟨last, hfate⟩
  gardenMatteRoute := (slotFollows_remapAll h hvalid).gardenMatteRoute
  gardenMotionRoute := (slotFollows_remapAll h hvalid).gardenMotionRoute
  scoreLoopDriver := (slotFollows_remapAll h hvalid).scoreLoopDriver
  masterMotion := (slotFollows_remapAll h hvalid).masterMotion
  masterRack := (slotFollows_remapAll h hvalid).masterRack
  snapshots := snapshots_remapAll h hvalid hidentities
  positions := (h.remapAll hvalid).positions
  layerRacks := fun _ hracks' => layerRacks_remapAll h hvalid hidentities hracks'

end

/-- While the stack has at most one layer per saved position, a slot keeps
naming the same layers between any two moments of a history, and two slots that
agree on the topology of their racks go on agreeing on it. -/
theorem morph_slots_keep_layers {stack : List StableLayerId} {earlier later : List StackEdit}
    (hlength : stack.length ≤ maxSavedLayerPosition + 1)
    (hvalid : ValidRun (maxSavedLayerPosition + 1) stack (earlier ++ later))
    (hidentities : (stack ++ appendedAll (earlier ++ later)).Nodup) :
    (∃ fate, ∀ slot : MorphSlot W M L C, CapturedAgainst stack slot →
        KeepsLayers (applyAll stack earlier) (applyAll stack (earlier ++ later))
          fate (slot.remapAll earlier) (slot.remapAll (earlier ++ later))) ∧
      ∀ a b : MorphSlot W M L C, CapturedAgainst stack a →
        CapturedAgainst stack b → RacksAgree a b →
          RacksAgree (a.remapAll (earlier ++ later)) (b.remapAll (earlier ++ later)) := by
  obtain ⟨hearlier, hlater⟩ := validRun_append.mp hvalid
  refine ⟨⟨fateAll later, ?_⟩, ?_⟩
  · intro slot hcaptured
    have hsplit : (stack ++ (appendedAll earlier ++ appendedAll later)).Nodup := by
      rwa [← appendedAll_append]
    rw [applyAll_append, remapAll_append]
    exact keepsLayers_remapAll (hcaptured.remapAll hearlier)
      (length_applyAll_le hearlier hlength) hlater
      (nodup_applyAll_append hearlier hsplit)
  · intro a b ha hb hagree
    exact hagree.remapAll ha hb hvalid

def sampleLayer (n : ℕ) : StableLayerId :=
  ⟨n % 65536 + 1, Nat.succ_pos _, by
    have hlt := Nat.mod_lt n (by decide : 0 < 65536)
    have hmax : 65536 ≤ u64Max := by decide
    omega⟩

variable {n : ℕ}

theorem sampleLayer_injective {m : ℕ} (hm : m < 65536) (hn : n < 65536)
    (h : sampleLayer m = sampleLayer n) : m = n := by
  have hval : m % 65536 + 1 = n % 65536 + 1 := congrArg Subtype.val h
  omega

/-- A slot of a stack of one layer, whose master transplant names it. -/
def sampleSlot : MorphSlot Unit Unit Unit Unit where
  gardenMatteRoute := .none
  gardenMotionRoute := .none
  scoreLoopDriver := .none
  masterMotion := some ⟨.selected ⟨0, Nat.zero_le _⟩, ⟨.none, .none⟩, ()⟩
  layers := [⟨0, none, ()⟩]
  masterRack := some VisualRack.empty
  layerRacks := some [VisualRack.empty]
  composition := none
  values := ()

theorem sampleSlot_captured : CapturedAgainst [sampleLayer 0] sampleSlot where
  distinct := by
    refine ⟨?_, ?_⟩
    · intro rack hrack
      cases hrack
      exact List.nodup_nil
    · intro racks hracks rack hrack
      cases hracks
      obtain rfl := List.mem_singleton.mp hrack
      exact List.nodup_nil
  positions := List.nodup_singleton _
  bounded := by
    intro layer hlayer
    obtain rfl := List.mem_singleton.mp hlayer
    exact Nat.zero_lt_one
  racks := by
    intro racks hracks
    cases hracks
    exact le_rfl

/-- A layer is appended, the first is moved behind it and then removed. -/
theorem morph_slots_keep_layers_sampleSlot :
    ∃ fate, KeepsLayers [sampleLayer 0] [sampleLayer 1] fate sampleSlot
      (sampleSlot.remapAll [.append (sampleLayer 1), .move 0 1, .remove 1]) := by
  have hvalid : ValidRun (maxSavedLayerPosition + 1) [sampleLayer 0]
      [.append (sampleLayer 1), .move 0 1, .remove 1] :=
    ⟨Nat.succ_lt_succ (Nat.succ_pos _), ⟨Nat.succ_pos _, Nat.lt_succ_self _⟩,
      Nat.lt_succ_self _, trivial⟩
  obtain ⟨⟨fate, hkeeps⟩, -⟩ :=
    @morph_slots_keep_layers Unit Unit Unit Unit [sampleLayer 0] []
      [.append (sampleLayer 1), .move 0 1, .remove 1] (by decide) hvalid
      (by decide)
  exact ⟨fate, hkeeps sampleSlot sampleSlot_captured⟩

def moveBehind (layers : List StableLayerId) : List StackEdit :=
  layers.map append ++ [.move 0 layers.length]

section

variable (first : StableLayerId) (layers : List StableLayerId)

theorem applyAll_moveBehind : applyAll [first] (moveBehind layers) =
    moveItem 0 layers.length (first :: layers) := by
  rw [moveBehind, applyAll_append, applyAll_appends]
  rfl

theorem validRun_moveBehind : ValidRun (layers.length + 1) [first] (moveBehind layers) := by
  rw [moveBehind, validRun_append, applyAll_appends]
  refine ⟨validRun_appends ?_, ⟨?_, ?_⟩, trivial⟩
  · rw [List.length_singleton, Nat.add_comm]
  · simp
  · simp

theorem appendedAll_moveBehind : appendedAll (moveBehind layers) = layers := by
  rw [moveBehind, appendedAll_append, appendedAll_appends]
  exact List.append_nil layers

theorem mem_applyAll_moveBehind : first ∈ applyAll [first] (moveBehind layers) := by
  rw [applyAll_moveBehind, (perm_moveItem (by simp) (by simp)).mem_iff]
  exact List.mem_cons_self

theorem getElem?_applyAll_moveBehind (h : layers ≠ []) :
    (applyAll [first] (moveBehind layers))[0]? = layers[0]? := by
  have hlen : 0 < layers.length := List.length_pos_of_ne_nil h
  have hsnd : afterMove 0 layers.length 1 = 0 := by
    rw [afterMove, if_neg (by omega), if_pos (by omega)]
  have hmove := @getElem?_moveItem _ (first :: layers) 0 layers.length (by simp) (by simp) 1
  rw [hsnd] at hmove
  rw [applyAll_moveBehind, hmove]
  rfl

end

theorem remap_past_cap (slot : MorphSlot W M L C) (motion : MotionConfig M)
    (position : SavedLayerPosition) (hmotion : slot.masterMotion = some motion)
    (hdonor : motion.transplantDonor = .selected position) {dest : ℕ}
    (hdest : maxSavedLayerPosition < dest) :
    (slot.remap (.move position.val dest)).masterMotion.map
      MotionConfig.transplantDonor = some (.selected position) := by
  have hsame : position.val ≠ dest := by omega
  have hstale : remappedSavedPositionAfterMove position position.val dest = position := by
    rw [remappedSavedPositionAfterMove, afterMove, if_pos rfl,
      Modulation.savedLayerPosition, dif_neg (by omega)]
    rfl
  rw [MorphSlot.remap, MorphSlot.remapLayersAfterMove, if_neg hsame, hmotion]
  simp [MotionConfig.remapAfterMove, remapMotionDonorAfterMove,
    ReferenceKind.remapAfterMove, motionDonorKind, hdonor, hstale]

theorem moveBehind_renames {layers : List StableLayerId} (hnd : (sampleLayer 0 :: layers).Nodup)
    (hlen : maxSavedLayerPosition < layers.length) :
    CapturedAgainst [sampleLayer 0] sampleSlot ∧
      ValidRun (layers.length + 1) [sampleLayer 0] (moveBehind layers) ∧
      ([sampleLayer 0] ++ appendedAll (moveBehind layers)).Nodup ∧
      (sampleSlot.remapAll (moveBehind layers)).masterMotion.map MotionConfig.transplantDonor =
        some (.selected ⟨0, Nat.zero_le _⟩) ∧
      (applyAll [sampleLayer 0] (moveBehind layers))[0]? = layers[0]? ∧
      sampleLayer 0 ∈ applyAll [sampleLayer 0] (moveBehind layers) := by
  refine ⟨sampleSlot_captured, validRun_moveBehind _ _, ?_, ?_, ?_, mem_applyAll_moveBehind _ _⟩
  · rw [appendedAll_moveBehind]
    exact hnd
  · rw [moveBehind, remapAll_append, remapAll_appends]
    exact remap_past_cap sampleSlot _ ⟨0, Nat.zero_le _⟩ rfl rfl hlen
  · apply getElem?_applyAll_moveBehind
    rintro rfl
    exact absurd hlen (Nat.not_lt_zero _)

def overfullLayers : List StableLayerId :=
  (List.range (maxSavedLayerPosition + 1)).map fun n => sampleLayer (n + 1)

theorem nodup_sampleLayers (hn : n < 65536) :
    (sampleLayer 0 ::
      (List.range n).map fun i => sampleLayer (i + 1)).Nodup := by
  have hall : sampleLayer 0 :: ((List.range n).map fun i => sampleLayer (i + 1)) =
      (List.range (n + 1)).map sampleLayer := by
    rw [List.range_succ_eq_map, List.map_cons, List.map_map]
    rfl
  rw [hall]
  apply List.Nodup.map_on _ List.nodup_range
  intro i hi j hj hsame
  rw [List.mem_range] at hi hj
  exact sampleLayer_injective (by omega) (by omega) hsame

theorem length_overfullLayers : overfullLayers.length = maxSavedLayerPosition + 1 := by
  rw [overfullLayers, List.length_map, List.length_range]

theorem head_overfullLayers : overfullLayers[0]? = some (sampleLayer 1) := by
  have hcap : 0 < maxSavedLayerPosition + 1 := by omega
  rw [overfullLayers, List.getElem?_map, List.getElem?_range hcap]
  rfl

/-- Appended layers push a stack past the saved positions, and the slot then
names another layer. -/
theorem overfull_stack_renames :
    CapturedAgainst [sampleLayer 0] sampleSlot ∧
      ValidRun (overfullLayers.length + 1) [sampleLayer 0] (moveBehind overfullLayers) ∧
      ([sampleLayer 0] ++ appendedAll (moveBehind overfullLayers)).Nodup ∧
      (sampleSlot.remapAll (moveBehind overfullLayers)).masterMotion.map
          MotionConfig.transplantDonor =
        some (.selected ⟨0, Nat.zero_le _⟩) ∧
      (applyAll [sampleLayer 0] (moveBehind overfullLayers))[0]? = some (sampleLayer 1) ∧
      sampleLayer 0 ∈ applyAll [sampleLayer 0] (moveBehind overfullLayers) := by
  have hlength : maxSavedLayerPosition < overfullLayers.length := by
    rw [length_overfullLayers]
    exact Nat.lt_succ_self _
  have hcap : maxSavedLayerPosition + 1 < 65536 := by decide
  rw [← head_overfullLayers]
  exact moveBehind_renames (nodup_sampleLayers hcap) hlength

end CollideOScope.Morph
