import CollideOScope.Modulation.Frame
import CollideOScope.Support.Positions

/-!
# Routings under edits of the stack

When layers are moved or removed, positional targets are renumbered and those
of a removed layer are dropped.  Typed targets of a removed layer or group
become tombstones.
-/

namespace CollideOScope.Modulation

open Composition

/-- `SavedLayerPosition::new` behind `u32::try_from`. -/
def savedLayerPosition (position : ℕ) : Option SavedLayerPosition :=
  if h : position ≤ maxSavedLayerPosition then some ⟨position, h⟩ else none

namespace Routing

/-- The body of `remap_layer_targets_after_move`. -/
def afterMove (routing : Routing) (source dest : ℕ) : Routing :=
  match parseLayerTarget routing.target with
  | none => routing
  | some (layer, suffix) =>
    routing.setTarget (layerTarget (CollideOScope.afterMove source dest layer + 1) suffix)

/-- The closure of `remap_layer_targets_after_remove`. -/
def afterRemove (routing : Routing) (removed : ℕ) : Option Routing :=
  match parseLayerTarget routing.target with
  | none => some routing
  | some (layer, suffix) =>
    (CollideOScope.afterRemove removed layer).map fun remapped =>
      routing.setTarget (layerTarget (remapped + 1) suffix)

/-- The closure of `remap_layer_targets_after_remove_with_stable_id`. -/
def tombstoneLayer (routing : Routing) (savedPosition : Option SavedLayerPosition)
    (removedLayerId : StableLayerId) : Option (Option Routing) :=
  match routing.stableTarget with
  | some (.node (.layer layerId) nodeId parameter) =>
    if layerId ≠ removedLayerId then some (some routing)
    else match savedPosition with
      | none => some none
      | some position =>
        (routing.setMissingTarget (.missingSavedLayer position nodeId parameter)).map some
  | _ => some (some routing)

def missingGroupTarget (removedGroupId : GroupId) : StableModTarget → Option SavedStableModTarget
  | .node (.group groupId) nodeId parameter =>
    if groupId = removedGroupId then some (.missingGroup groupId (.node nodeId parameter))
    else none
  | .groupValue groupId parameter =>
    if groupId = removedGroupId then some (.missingGroup groupId (.groupValue parameter))
    else none
  | _ => none

/-- The body of `tombstone_group_targets_after_remove`. -/
def tombstoneGroup (routing : Routing) (removedGroupId : GroupId) : Option Routing :=
  match routing.stableTarget.bind (missingGroupTarget removedGroupId) with
  | none => some routing
  | some missing => routing.setMissingTarget missing

end Routing

def remapLayerTargetsAfterMove (routings : List Routing) (source dest : ℕ) : List Routing :=
  if source = dest then routings
  else routings.map fun routing => routing.afterMove source dest

def remapLayerTargetsAfterRemove (routings : List Routing) (removed : ℕ) : List Routing :=
  routings.filterMap fun routing => routing.afterRemove removed

def remapLayerTargetsAfterRemoveWithStableId (routings : List Routing)
    (removed : ℕ) (removedLayerId : StableLayerId) : Option (List Routing) :=
  (retainMut (fun routing =>
    routing.tombstoneLayer (savedLayerPosition removed) removedLayerId)
      routings).map fun routings => remapLayerTargetsAfterRemove routings removed

def tombstoneGroupTargetsAfterRemove (routings : List Routing)
    (removedGroupId : GroupId) : Option (List Routing) :=
  routings.mapM fun routing => routing.tombstoneGroup removedGroupId

inductive LayerEdit
  | move (source dest : ℕ)
  | removeLayer (removed : ℕ)
  | removeGroup (groupId : GroupId)

namespace LayerEdit

def Valid (layers : List StableLayerId) : LayerEdit → Prop
  | move source dest => source < layers.length ∧ dest < layers.length
  | removeLayer removed => removed < layers.length
  | removeGroup _ => True

def apply (layers : List StableLayerId) : LayerEdit → List StableLayerId
  | move source dest => moveItem source dest layers
  | removeLayer removed => layers.eraseIdx removed
  | removeGroup _ => layers

/-- The call that mirrors an edit of a stack. -/
def remap (layers : List StableLayerId) (routings : List Routing) :
    LayerEdit → Option (List Routing)
  | move source dest => some (remapLayerTargetsAfterMove routings source dest)
  | removeLayer removed => do
    let removedLayerId ← layers[removed]?
    remapLayerTargetsAfterRemoveWithStableId routings removed removedLayerId
  | removeGroup groupId => tombstoneGroupTargetsAfterRemove routings groupId

end LayerEdit

/-- Every edit is one of the stack it is made on. -/
def ValidEdits : List StableLayerId → List LayerEdit → Prop
  | _, [] => True
  | layers, edit :: rest => edit.Valid layers ∧ ValidEdits (edit.apply layers) rest

def applyAll (layers : List StableLayerId) (edits : List LayerEdit) : List StableLayerId :=
  edits.foldl LayerEdit.apply layers

def remapAll : List StableLayerId → List LayerEdit → List Routing → Option (List Routing)
  | _, [], routings => some routings
  | layers, edit :: rest, routings => do
    let routings ← edit.remap layers routings
    remapAll (edit.apply layers) rest routings

end CollideOScope.Modulation
