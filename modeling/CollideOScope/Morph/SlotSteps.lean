import CollideOScope.Morph.RackApplication
import CollideOScope.Morph.SavedRoutes

/-!
# Morph slots under edits of the stack

A slot is remapped with every move and removal of a layer: its routes, the
positions of its snapshots, and its list of layer racks.  A rack list that does
not reach the edited positions is dropped, and so is the captured composition.

The data of a slot that no edit touches is left abstract.
-/

namespace CollideOScope.Morph

open Function List Composition

abbrev SavedVisualRack := VisualRack SavedImageTap SavedMotionDonor

/-- A `MotionConfig`: its routes, and `values` for everything else. -/
structure MotionConfig (M : Type) where
  transplantDonor : MotionDonorConfig
  collider : FieldColliderConfig
  values : M

structure LayerMorphSnapshot (M L : Type) where
  position : ℕ
  motion : Option (MotionConfig M)
  values : L

/-- A `MorphSlot`: what edits of the stack touch, and `values` for everything
else. -/
structure MorphSlot (W M L C : Type) where
  gardenMatteRoute : RefreshGardenMatteRouteConfig
  gardenMotionRoute : RefreshGardenMotionRouteConfig
  scoreLoopDriver : CollisionScoreLoopDriverConfig
  masterMotion : Option (MotionConfig M)
  layers : List (LayerMorphSnapshot M L)
  masterRack : Option SavedVisualRack
  layerRacks : Option (List SavedVisualRack)
  composition : Option C
  values : W

variable {W M L C : Type}

/-- The loop over the nodes of a rack, found one by one by identity. -/
def remapRackRoutes (tap : SavedImageTap → SavedImageTap)
    (donor : SavedMotionDonor → SavedMotionDonor) (rack : SavedVisualRack) :
    SavedVisualRack :=
  let nodeIds := rack.nodes.map VisualNode.stableId
  { rack with
    nodes :=
      modifyEach VisualNode.stableId (fun node => node.mapRoutes tap donor) nodeIds rack.nodes }

def remapSavedRackRoutesAfterMove (source dest : ℕ) : SavedVisualRack → SavedVisualRack :=
  remapRackRoutes (remapSavedTapAfterMove source dest) (remapSavedMotionDonorAfterMove source dest)

def remapSavedRackRoutesAfterRemove (removed : ℕ) : SavedVisualRack → SavedVisualRack :=
  remapRackRoutes (remapSavedTapAfterRemove removed) (remapSavedMotionDonorAfterRemove removed)

def MotionConfig.remapAfterRemove (removed : ℕ) (motion : MotionConfig M) : MotionConfig M where
  transplantDonor := remapMotionDonorAfterRemove removed motion.transplantDonor
  collider := remapMotionColliderInputsAfterRemove removed motion.collider
  values := motion.values

/-- The closure of `retain_mut`. -/
def LayerMorphSnapshot.retainAfterRemove (removed : ℕ)
    (layer : LayerMorphSnapshot M L) : Option (LayerMorphSnapshot M L) :=
  (afterRemove removed layer.position).map fun position => { layer with position }

def MorphSlot.remapLayersAfterRemove (slot : MorphSlot W M L C)
    (removed : ℕ) : MorphSlot W M L C where
  gardenMatteRoute := remapGardenMatteRouteAfterRemove removed slot.gardenMatteRoute
  gardenMotionRoute := remapGardenMotionRouteAfterRemove removed slot.gardenMotionRoute
  scoreLoopDriver := remapScoreDriverAfterRemove removed slot.scoreLoopDriver
  masterMotion := slot.masterMotion.map (MotionConfig.remapAfterRemove removed)
  layers :=
    let layers := slot.layers.map fun layer =>
      { layer with motion := layer.motion.map (MotionConfig.remapAfterRemove removed) }
    layers.filterMap (LayerMorphSnapshot.retainAfterRemove removed)
  masterRack := slot.masterRack.map (remapSavedRackRoutesAfterRemove removed)
  layerRacks :=
    slot.layerRacks.bind fun racks =>
      let racks := racks.map (remapSavedRackRoutesAfterRemove removed)
      if removed < racks.length then some (racks.eraseIdx removed) else none
  composition := none
  values := slot.values

def MotionConfig.remapAfterMove (source dest : ℕ) (motion : MotionConfig M) : MotionConfig M where
  transplantDonor := remapMotionDonorAfterMove source dest motion.transplantDonor
  collider := remapMotionColliderInputsAfterMove source dest motion.collider
  values := motion.values

def MorphSlot.remapLayersAfterMove (slot : MorphSlot W M L C)
    (source dest : ℕ) : MorphSlot W M L C :=
  if source = dest then slot
  else
    { gardenMatteRoute := remapGardenMatteRouteAfterMove source dest slot.gardenMatteRoute
      gardenMotionRoute := remapGardenMotionRouteAfterMove source dest slot.gardenMotionRoute
      scoreLoopDriver := remapScoreDriverAfterMove source dest slot.scoreLoopDriver
      masterMotion := slot.masterMotion.map (MotionConfig.remapAfterMove source dest)
      layers :=
        let layers := slot.layers.map fun layer =>
          { layer with motion := layer.motion.map (MotionConfig.remapAfterMove source dest) }
        layers.map fun layer => { layer with position := afterMove source dest layer.position }
      masterRack := slot.masterRack.map (remapSavedRackRoutesAfterMove source dest)
      layerRacks :=
        slot.layerRacks.bind fun racks =>
          let racks := racks.map (remapSavedRackRoutesAfterMove source dest)
          if source < racks.length ∧ dest < racks.length then some (moveItem source dest racks)
          else none
      composition := none
      values := slot.values }

abbrev StackEdit := ListEdit StableLayerId

/-- What an edit of the stack does to a slot.  An appended layer is below every
other, so no position changes. -/
def MorphSlot.remap (slot : MorphSlot W M L C) : StackEdit → MorphSlot W M L C
  | .move source dest => slot.remapLayersAfterMove source dest
  | .remove removed => slot.remapLayersAfterRemove removed
  | .append _ => slot

def MorphSlot.remapAll (slot : MorphSlot W M L C) (edits : List StackEdit) : MorphSlot W M L C :=
  edits.foldl MorphSlot.remap slot

def savedNodeTopologyMatches (a b : NodeKind SavedImageTap SavedMotionDonor) : Bool :=
  nodeValueTopologyMatches a b && nodeRoutesMatch a b

def racksShareTopology (a b : SavedVisualRack) : Bool :=
  topologySignature a.nodes = topologySignature b.nodes &&
    decide (a.nodes.length = b.nodes.length) &&
    (a.nodes.zip b.nodes).all fun pair =>
      decide (pair.1.stableId = pair.2.stableId) && savedNodeTopologyMatches pair.1.kind pair.2.kind

/-!
## A slot follows one edit

Every route of a slot follows the fate of the position it names, and every
snapshot and every layer rack goes where the edit takes its position.
-/

section

variable {T T' D D' : Type} (f : T → T') (g : D → D')

theorem topologySignature_mapRoutes (nodes : List (VisualNode T D)) :
    topologySignature (nodes.map fun node => node.mapRoutes f g) = topologySignature nodes := by
  simp only [topologySignature, foldl_map, VisualNode.mapRoutes, NodeKind.tag_mapRoutes]

variable {a b : NodeKind T D}

theorem nodeValueTopologyMatches_mapRoutes (h : nodeValueTopologyMatches a b = true) :
    nodeValueTopologyMatches (a.mapRoutes f g) (b.mapRoutes f g) = true := by
  have htag := nodeValueTopologyMatches_tag h
  cases a with
  | mask a =>
    cases b <;> cases htag
    rename_i b
    cases a <;> cases b <;>
      first
        | rfl
        | cases h
  | _ =>
    cases b <;> cases htag
    rfl

theorem nodeRoutesMatch_mapRoutes [DecidableEq T] [DecidableEq D] [DecidableEq T'] [DecidableEq D']
    (htag : a.tag = b.tag) (h : nodeRoutesMatch a b = true) :
    nodeRoutesMatch (a.mapRoutes f g) (b.mapRoutes f g) = true := by
  cases a with cases b <;> cases htag
  | mask a =>
    rename_i b
    cases a <;> cases b <;>
      simp_all [nodeRoutesMatch, NodeKind.mapRoutes, MaskParams.mapRoutes, ImageMatte.mapRoutes]
  | displace a => simp_all [nodeRoutesMatch, NodeKind.mapRoutes, DisplaceParams.mapRoutes]
  | symmetry a => simp_all [nodeRoutesMatch, NodeKind.mapRoutes, SymmetryParams.mapRoutes]
  | residual a => simp_all [nodeRoutesMatch, NodeKind.mapRoutes, ResidualParams.mapRoutes]
  | _ => rfl

end

def followRack (fate : SavedLayerPosition → Fate) (rack : SavedVisualRack) : SavedVisualRack :=
  { rack with
    nodes := rack.nodes.map fun node =>
      node.mapRoutes (tapKind.follow fate) (savedMotionDonorKind.follow fate) }

section

variable {rack : SavedVisualRack} {first next fate : SavedLayerPosition → Fate}

theorem remapRackRoutes_eq (hdist : DistinctNodes rack) (tap : SavedImageTap → SavedImageTap)
    (donor : SavedMotionDonor → SavedMotionDonor) :
    remapRackRoutes tap donor rack =
      { rack with nodes := rack.nodes.map fun node => node.mapRoutes tap donor } := by
  have hkey : ∀ node : VisualNode SavedImageTap SavedMotionDonor,
      (node.mapRoutes tap donor).stableId = node.stableId := fun _ => rfl
  rw [remapRackRoutes, modifyEach_eq_map hkey hdist]

theorem remapSavedRackRoutesAfterMove_eq (hdist : DistinctNodes rack) (source dest : ℕ) :
    remapSavedRackRoutesAfterMove source dest rack =
      followRack (Fate.afterMove source dest) rack := by
  rw [remapSavedRackRoutesAfterMove, remapRackRoutes_eq hdist, followRack]
  rfl

theorem remapSavedRackRoutesAfterRemove_eq (hdist : DistinctNodes rack) (removed : ℕ) :
    remapSavedRackRoutesAfterRemove removed rack = followRack (Fate.afterRemove removed) rack := by
  rw [remapSavedRackRoutesAfterRemove, remapRackRoutes_eq hdist, followRack,
    remapSavedTapAfterRemove, remapSavedMotionDonorAfterRemove,
    ReferenceKind.remapAfterRemove_eq_follow, ReferenceKind.remapAfterRemove_eq_follow]

theorem distinctNodes_followRack (h : DistinctNodes rack) :
    DistinctNodes (followRack fate rack) := by
  simpa [DistinctNodes, followRack, comp_def, VisualNode.mapRoutes] using h

@[simp]
theorem followRack_stands : followRack Fate.stands rack = rack := by
  have htap : tapKind.follow Fate.stands = fun tap => tap := funext tapKind.follow_stands
  have hdonor : savedMotionDonorKind.follow Fate.stands = fun donor => donor :=
    funext savedMotionDonorKind.follow_stands
  simp [followRack, htap, hdonor, VisualNode.mapRoutes_id]

theorem followRack_followRack :
    followRack next (followRack first rack) =
      followRack (fun position => (first position).andThen next) rack := by
  simp [followRack, VisualNode.mapRoutes_mapRoutes, ReferenceKind.follow_follow]

theorem racksShareTopology_followRack {a b : SavedVisualRack} (h : racksShareTopology a b = true) :
    racksShareTopology (followRack fate a) (followRack fate b) = true := by
  simp only [racksShareTopology, savedNodeTopologyMatches, followRack, topologySignature_mapRoutes,
    length_map, zip_map, all_map, Bool.and_eq_true, decide_eq_true_eq,
    all_eq_true, comp_apply, Prod.map_fst, Prod.map_snd] at h ⊢
  obtain ⟨⟨hsig, hlen⟩, hnodes⟩ := h
  refine ⟨⟨hsig, hlen⟩, ?_⟩
  intro pair hpair
  obtain ⟨hid, hval, hroutes⟩ := hnodes pair hpair
  exact ⟨hid, nodeValueTopologyMatches_mapRoutes _ _ hval,
    nodeRoutesMatch_mapRoutes _ _ (nodeValueTopologyMatches_tag hval) hroutes⟩

end

def editFate : StackEdit → SavedLayerPosition → Fate
  | .move source dest => Fate.afterMove source dest
  | .remove removed => Fate.afterRemove removed
  | .append _ => Fate.stands

theorem remappedSavedPositionAfterMove_self (position : SavedLayerPosition)
    (i : ℕ) : remappedSavedPositionAfterMove position i i = position := by
  rw [remappedSavedPositionAfterMove, afterMove_self,
    Modulation.savedLayerPosition, dif_pos position.property]
  rfl

theorem Fate.afterMove_self (i : ℕ) : Fate.afterMove i i = Fate.stands := by
  funext position
  rw [Fate.afterMove, remappedSavedPositionAfterMove_self]

theorem editFate_spec {stack : List StableLayerId} {edit : StackEdit}
    (hvalid : edit.Valid (maxSavedLayerPosition + 1) stack)
    (hlen : stack.length ≤ maxSavedLayerPosition + 1) (position : SavedLayerPosition) :
    (∃ next, editFate edit position = .stands next ∧ edit.track position.val = some next.val) ∨
      editFate edit position = .lost position ∧ edit.track position.val = none := by
  cases edit with
  | move source dest =>
    obtain ⟨hsrc, hdest⟩ := hvalid
    have hpos := position.property
    have hfits : afterMove source dest position.val ≤ maxSavedLayerPosition := by
      rw [afterMove]
      split_ifs <;> omega
    refine .inl ⟨⟨_, hfits⟩, ?_, rfl⟩
    rw [editFate, Fate.afterMove, remappedSavedPositionAfterMove,
      Modulation.savedLayerPosition, dif_pos hfits]
    rfl
  | remove removed =>
    simp only [editFate, Fate.afterRemove, ListEdit.track, afterRemove]
    split_ifs with hlost hpast
    · exact .inr ⟨rfl, rfl⟩
    · exact .inl ⟨_, rfl, rfl⟩
    · exact .inl ⟨_, rfl, rfl⟩
  | append layerId => exact .inl ⟨position, rfl, rfl⟩

def MotionConfig.follow (fate : SavedLayerPosition → Fate)
    (motion : MotionConfig M) : MotionConfig M where
  transplantDonor := motionDonorKind.follow fate motion.transplantDonor
  collider :=
    ⟨motionDonorKind.follow fate motion.collider.inputA,
      motionDonorKind.follow fate motion.collider.inputB⟩
  values := motion.values

/-- A snapshot goes where its position is taken, and its routes follow the
positions they name. -/
def LayerMorphSnapshot.follow (fate : SavedLayerPosition → Fate)
    (track : ℕ → Option ℕ) (layer : LayerMorphSnapshot M L) :
    Option (LayerMorphSnapshot M L) :=
  (track layer.position).map fun position =>
    { layer with
      position
      motion := layer.motion.map (MotionConfig.follow fate) }

/-- Every layer rack of the one list that is still there goes where its
position is taken. -/
def RacksFollow (fate : SavedLayerPosition → Fate) (track : ℕ → Option ℕ)
    (racks racks' : List SavedVisualRack) : Prop :=
  ∀ i j, track i = some j → racks'[j]? = racks[i]?.map (followRack fate)

structure SlotFollows (fate : SavedLayerPosition → Fate)
    (track : ℕ → Option ℕ) (slot slot' : MorphSlot W M L C) : Prop where
  gardenMatteRoute : slot'.gardenMatteRoute = gardenMatteKind.follow fate slot.gardenMatteRoute
  gardenMotionRoute : slot'.gardenMotionRoute = gardenMotionKind.follow fate slot.gardenMotionRoute
  scoreLoopDriver : slot'.scoreLoopDriver = scoreDriverKind.follow fate slot.scoreLoopDriver
  masterMotion : slot'.masterMotion = slot.masterMotion.map (MotionConfig.follow fate)
  layers : slot'.layers = slot.layers.filterMap (LayerMorphSnapshot.follow fate track)
  masterRack : slot'.masterRack = slot.masterRack.map (followRack fate)
  layerRacks : ∀ racks', slot'.layerRacks = some racks' →
    ∃ racks, slot.layerRacks = some racks ∧ RacksFollow fate track racks racks'
  values : slot'.values = slot.values

section

variable {slot slot' slot'' : MorphSlot W M L C}
  {first next : SavedLayerPosition → Fate} {track track' : ℕ → Option ℕ}

@[simp]
theorem MotionConfig.follow_stands (motion : MotionConfig M) :
    motion.follow Fate.stands = motion := by
  simp [MotionConfig.follow]

theorem MotionConfig.follow_follow (motion : MotionConfig M) :
    (motion.follow first).follow next =
      motion.follow fun position => (first position).andThen next := by
  simp [MotionConfig.follow, ReferenceKind.follow_follow]

theorem slotFollows_refl (slot : MorphSlot W M L C) : SlotFollows Fate.stands some slot slot where
  gardenMatteRoute := (gardenMatteKind.follow_stands _).symm
  gardenMotionRoute := (gardenMotionKind.follow_stands _).symm
  scoreLoopDriver := (scoreDriverKind.follow_stands _).symm
  masterMotion := by
    cases slot.masterMotion <;> simp
  layers := by
    have hsame : LayerMorphSnapshot.follow (M := M) (L := L) Fate.stands some = some := by
      funext layer
      obtain ⟨position, motion, values⟩ := layer
      cases motion <;> simp [LayerMorphSnapshot.follow]
    rw [hsame, filterMap_some]
  masterRack := by
    cases slot.masterRack <;> simp
  layerRacks := by
    intro racks hracks
    refine ⟨racks, hracks, ?_⟩
    intro i j htrack
    cases htrack
    cases racks[i]? <;> simp
  values := rfl

theorem SlotFollows.trans (h : SlotFollows first track slot slot')
    (h' : SlotFollows next track' slot' slot'') :
    SlotFollows (fun position => (first position).andThen next)
      (fun i => (track i).bind track') slot slot'' where
  gardenMatteRoute := by
    rw [h'.gardenMatteRoute, h.gardenMatteRoute, ReferenceKind.follow_follow]
  gardenMotionRoute := by
    rw [h'.gardenMotionRoute, h.gardenMotionRoute, ReferenceKind.follow_follow]
  scoreLoopDriver := by
    rw [h'.scoreLoopDriver, h.scoreLoopDriver, ReferenceKind.follow_follow]
  masterMotion := by
    rw [h'.masterMotion, h.masterMotion]
    cases slot.masterMotion with
    | none => rfl
    | some motion => exact congrArg some motion.follow_follow
  layers := by
    rw [h'.layers, h.layers, filterMap_filterMap]
    congr 1
    funext layer
    cases htrack : track layer.position with
    | none => simp [LayerMorphSnapshot.follow, htrack]
    | some position =>
      cases hnext : track' position with
      | none => simp [LayerMorphSnapshot.follow, htrack, hnext]
      | some position' =>
        cases hmotion : layer.motion <;>
          simp [LayerMorphSnapshot.follow, htrack, hnext, hmotion, MotionConfig.follow_follow]
  masterRack := by
    rw [h'.masterRack, h.masterRack]
    cases slot.masterRack with
    | none => rfl
    | some rack => exact congrArg some followRack_followRack
  layerRacks := by
    intro racks'' hracks''
    obtain ⟨racks', hracks', hfollow'⟩ := h'.layerRacks racks'' hracks''
    obtain ⟨racks, hracks, hfol⟩ := h.layerRacks racks' hracks'
    refine ⟨racks, hracks, ?_⟩
    intro i j htrack
    obtain ⟨k, hk, hj⟩ := Option.bind_eq_some_iff.mp htrack
    rw [hfollow' k j hj, hfol i k hk]
    cases racks[i]? with
    | none => rfl
    | some rack => exact congrArg some followRack_followRack
  values := h'.values.trans h.values

end

structure DistinctRacks (slot : MorphSlot W M L C) : Prop where
  masterRack : ∀ rack, slot.masterRack = some rack → DistinctNodes rack
  layerRacks : ∀ racks, slot.layerRacks = some racks → ∀ rack ∈ racks, DistinctNodes rack

section

variable {slot : MorphSlot W M L C}

theorem map_motion_afterRemove (removed : ℕ) (motion : MotionConfig M) :
    motion.remapAfterRemove removed = motion.follow (Fate.afterRemove removed) := by
  simp [MotionConfig.remapAfterRemove, MotionConfig.follow, remapMotionColliderInputsAfterRemove,
    remapMotionDonorAfterRemove, ReferenceKind.remapAfterRemove_eq_follow]

variable {f g : SavedVisualRack → SavedVisualRack}

theorem DistinctRacks.map_masterRack (h : DistinctRacks slot)
    (hfg : ∀ rack, DistinctNodes rack → f rack = g rack) :
    slot.masterRack.map f = slot.masterRack.map g := by
  cases hrack : slot.masterRack with
  | none => rfl
  | some rack => exact congrArg some (hfg rack (h.masterRack rack hrack))

theorem DistinctRacks.map_layerRacks (h : DistinctRacks slot) {racks : List SavedVisualRack}
    (hracks : slot.layerRacks = some racks) (hfg : ∀ rack, DistinctNodes rack → f rack = g rack) :
    racks.map f = racks.map g := by
  apply map_congr_left
  intro rack hrack
  exact hfg rack (h.layerRacks racks hracks rack hrack)

theorem slotFollows_move (hdist : DistinctRacks slot) (source dest : ℕ) :
    SlotFollows (Fate.afterMove source dest) (fun i => some (afterMove source dest i)) slot
      (slot.remapLayersAfterMove source dest) := by
  rw [MorphSlot.remapLayersAfterMove]
  split_ifs with hsame
  · subst hsame
    simp only [Fate.afterMove_self, afterMove_self]
    exact slotFollows_refl slot
  · refine ⟨rfl, rfl, rfl, rfl, ?_, ?_, ?_, rfl⟩
    · have hmap : LayerMorphSnapshot.follow (L := L) (Fate.afterMove source dest)
          (fun i => some (afterMove source dest i)) =
          some ∘ fun layer : LayerMorphSnapshot M L =>
            { layer with
              position := afterMove source dest layer.position
              motion := layer.motion.map (MotionConfig.remapAfterMove source dest) } :=
        rfl
      rw [hmap, filterMap_eq_map]
      exact map_map
    · exact hdist.map_masterRack fun rack hrack =>
        remapSavedRackRoutesAfterMove_eq hrack source dest
    · intro racks' hracks'
      obtain ⟨racks, hracks, hmoved⟩ := Option.bind_eq_some_iff.mp hracks'
      refine ⟨racks, hracks, ?_⟩
      intro i j htrack
      cases htrack
      rw [hdist.map_layerRacks hracks fun rack hrack =>
        remapSavedRackRoutesAfterMove_eq hrack source dest] at hmoved
      dsimp only at hmoved
      split_ifs at hmoved with hbds
      cases hmoved
      rw [getElem?_moveItem hbds.1 hbds.2, getElem?_map]

theorem slotFollows_remove (hdist : DistinctRacks slot) (removed : ℕ) :
    SlotFollows (Fate.afterRemove removed) (afterRemove removed) slot
      (slot.remapLayersAfterRemove removed) where
  gardenMatteRoute := congrFun (gardenMatteKind.remapAfterRemove_eq_follow removed) _
  gardenMotionRoute := congrFun (gardenMotionKind.remapAfterRemove_eq_follow removed) _
  scoreLoopDriver := congrFun (scoreDriverKind.remapAfterRemove_eq_follow removed) _
  masterMotion := by
    rw [← funext (map_motion_afterRemove removed)]
    rfl
  layers := by
    simp only [MorphSlot.remapLayersAfterRemove, filterMap_map]
    congr 1
    funext layer
    simp [LayerMorphSnapshot.follow, LayerMorphSnapshot.retainAfterRemove,
      ← funext (map_motion_afterRemove removed)]
  masterRack := hdist.map_masterRack fun rack hrack =>
    remapSavedRackRoutesAfterRemove_eq hrack removed
  layerRacks := by
    intro racks' hracks'
    obtain ⟨racks, hracks, herased⟩ := Option.bind_eq_some_iff.mp hracks'
    refine ⟨racks, hracks, ?_⟩
    intro i j htrack
    rw [hdist.map_layerRacks hracks fun rack hrack =>
      remapSavedRackRoutesAfterRemove_eq hrack removed] at herased
    dsimp only at herased
    split_ifs at herased with hbds
    cases herased
    rw [getElem?_eraseIdx_afterRemove htrack, getElem?_map]
  values := rfl

theorem slotFollows_remap (hdist : DistinctRacks slot) (edit : StackEdit) :
    SlotFollows (editFate edit) (fun i => edit.track i) slot (slot.remap edit) := by
  cases edit with
  | move source dest => exact slotFollows_move hdist source dest
  | remove removed => exact slotFollows_remove hdist removed
  | append layerId => exact slotFollows_refl slot

end

end CollideOScope.Morph
