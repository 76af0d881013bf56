import CollideOScope.Composition.Parameters
import CollideOScope.Composition.Routes
import CollideOScope.Modulation.Registry

/-!
# Modulation targets

A target is a parameter of a node, a value of a group or a value of the whole
composition.  On the wire it is a path, whose identities are decimal numerals
and whose last segment is the key of the value.
-/

namespace CollideOScope.Modulation

open Composition StableNodeParameter

/-- Values of a group that no node of its rack owns. -/
inductive GroupModParameter
  | opacity | positionX | positionY | scaleX | scaleY | anchorX | anchorY
  | rotationDeg | skewDeg | skewAxisDeg | cropLeft | cropTop | cropRight
  | cropBottom | matteAmount | matteThreshold | matteSoftness
  deriving DecidableEq

namespace GroupModParameter

def parse : String → Option GroupModParameter
  | "opacity" => some opacity
  | "position.x" => some positionX
  | "position.y" => some positionY
  | "scale.x" => some scaleX
  | "scale.y" => some scaleY
  | "anchor.x" => some anchorX
  | "anchor.y" => some anchorY
  | "rotation_deg" => some rotationDeg
  | "skew_deg" => some skewDeg
  | "skew_axis_deg" => some skewAxisDeg
  | "crop_left" => some cropLeft
  | "crop_top" => some cropTop
  | "crop_right" => some cropRight
  | "crop_bottom" => some cropBottom
  | "matte.amount" => some matteAmount
  | "matte.threshold" => some matteThreshold
  | "matte.softness" => some matteSoftness
  | _ => none

def key : GroupModParameter → String
  | opacity => "opacity"
  | positionX => "position.x"
  | positionY => "position.y"
  | scaleX => "scale.x"
  | scaleY => "scale.y"
  | anchorX => "anchor.x"
  | anchorY => "anchor.y"
  | rotationDeg => "rotation_deg"
  | skewDeg => "skew_deg"
  | skewAxisDeg => "skew_axis_deg"
  | cropLeft => "crop_left"
  | cropTop => "crop_top"
  | cropRight => "crop_right"
  | cropBottom => "crop_bottom"
  | matteAmount => "matte.amount"
  | matteThreshold => "matte.threshold"
  | matteSoftness => "matte.softness"

def range : GroupModParameter → F32 × F32
  | opacity => (0, 1)
  | positionX | positionY => (-4, 4)
  | scaleX | scaleY => (-16, 16)
  | anchorX | anchorY => (-2, 3)
  | rotationDeg | skewAxisDeg => (-180, 180)
  | skewDeg => (-89, 89)
  | cropLeft | cropTop | cropRight | cropBottom => (0, 1 - minCropExtent)
  | matteAmount | matteThreshold => (0, 1)
  | matteSoftness => (0, 0.5)

theorem parse_key (parameter : GroupModParameter) : parse parameter.key = some parameter := by
  cases parameter <;> rfl

theorem slash_notMem_key (parameter : GroupModParameter) : '/' ∉ parameter.key.toList := by
  cases parameter <;> decide

end GroupModParameter

inductive CompositionModParameter
  | busCrossfade | busWipeSoft | busWipeX | busWipeY | busWipeDetail
  | busWipeBorder | busDirt | busDirtRate | busDirtDrop | busDirtCut
  | busDirtKnock | busDirtNoise | busMelt | busMeltWidth | busMeltHold
  | busMeltSwirl | busMeltChroma | busMeltCreep
  deriving DecidableEq

namespace CompositionModParameter

def all : List CompositionModParameter :=
  [busCrossfade, busWipeSoft, busWipeX, busWipeY, busWipeDetail, busWipeBorder, busDirt,
    busDirtRate, busDirtDrop, busDirtCut, busDirtKnock, busDirtNoise, busMelt, busMeltWidth,
    busMeltHold, busMeltSwirl, busMeltChroma, busMeltCreep]

def key : CompositionModParameter → String
  | busCrossfade => "bus_crossfade"
  | busWipeSoft => "bus_wipe_soft"
  | busWipeX => "bus_wipe_x"
  | busWipeY => "bus_wipe_y"
  | busWipeDetail => "bus_wipe_detail"
  | busWipeBorder => "bus_wipe_border"
  | busDirt => "bus_dirt"
  | busDirtRate => "bus_dirt_rate"
  | busDirtDrop => "bus_dirt_drop"
  | busDirtCut => "bus_dirt_cut"
  | busDirtKnock => "bus_dirt_knock"
  | busDirtNoise => "bus_dirt_noise"
  | busMelt => "bus_melt"
  | busMeltWidth => "bus_melt_width"
  | busMeltHold => "bus_melt_hold"
  | busMeltSwirl => "bus_melt_swirl"
  | busMeltChroma => "bus_melt_chroma"
  | busMeltCreep => "bus_melt_creep"

def parse (value : String) : Option CompositionModParameter :=
  all.find? fun parameter => parameter.key = value

def range : CompositionModParameter → F32 × F32
  | busWipeX | busWipeY | busMeltSwirl => (-1, 1)
  | busMelt | busMeltWidth => (0, 2)
  | busMeltHold => (0, 1.5)
  | _ => (0, 1)

theorem parse_key (parameter : CompositionModParameter) : parse parameter.key = some parameter := by
  cases parameter <;> decide +kernel

theorem slash_notMem_key (parameter : CompositionModParameter) : '/' ∉ parameter.key.toList := by
  cases parameter <;> decide

end CompositionModParameter

inductive StableModScope
  | master
  | layer (layerId : StableLayerId)
  | group (groupId : GroupId)
  deriving DecidableEq

inductive StableModTarget
  | node (scope : StableModScope) (nodeId : NodeId)
      (parameter : StableNodeParameter)
  | groupValue (groupId : GroupId) (parameter : GroupModParameter)
  | compositionValue (parameter : CompositionModParameter)
  deriving DecidableEq

/-- `decimal_u64` and the constructor of an identity. -/
def parseStableId (value : String) : Option {id : ℕ // 0 < id ∧ id ≤ u64Max} :=
  (parseDigits u64Max value.toList).bind GroupId.new

namespace StableModTarget

/-- The match of `StableModTarget::parse` on the segments of a path. -/
def ofSegments : List String → Option StableModTarget
  | ["node", "master", id, parameter] => do
      let nodeId ← parseStableId id
      let parameter ← parse parameter
      return .node .master nodeId parameter
  | ["node", "layer", layer, id, parameter] => do
      let layerId ← parseStableId layer
      let nodeId ← parseStableId id
      let parameter ← parse parameter
      return .node (.layer layerId) nodeId parameter
  | ["node", "group", group, id, parameter] => do
      let groupId ← parseStableId group
      let nodeId ← parseStableId id
      let parameter ← parse parameter
      return .node (.group groupId) nodeId parameter
  | ["group", group, parameter] => do
      let groupId ← parseStableId group
      let parameter ← GroupModParameter.parse parameter
      return .groupValue groupId parameter
  | ["composition", parameter] => do
      let parameter ← CompositionModParameter.parse parameter
      return .compositionValue parameter
  | _ => none

def parse (value : String) : Option StableModTarget := ofSegments (segments '/' value)

def range : StableModTarget → F32 × F32
  | node _ _ parameter => parameter.range
  | groupValue _ parameter => parameter.range
  | compositionValue parameter => parameter.range

def scopeSegments : StableModScope → List String
  | .master => ["node", "master"]
  | .layer layerId => ["node", "layer", decimal layerId.val]
  | .group groupId => ["node", "group", decimal groupId.val]

/-- The formatter; it fails when that of the node parameter does. -/
def render : StableModTarget → Option String
  | node scope nodeId parameter =>
    parameter.render.map fun key =>
      joinSegments '/' (scopeSegments scope ++ [decimal nodeId.val, key])
  | groupValue groupId parameter =>
    some (joinSegments '/' ["group", decimal groupId.val, parameter.key])
  | compositionValue parameter => some (joinSegments '/' ["composition", parameter.key])

def sameWireTarget : StableModTarget → StableModTarget → Bool
  | node leftScope leftNode leftParameter,
    node rightScope rightNode rightParameter =>
    decide (leftScope = rightScope) && decide (leftNode = rightNode) &&
      leftParameter.sameWireParameter rightParameter
  | groupValue leftGroup leftParameter, groupValue rightGroup rightParameter =>
    decide (leftGroup = rightGroup) && decide (leftParameter = rightParameter)
  | compositionValue leftParameter, compositionValue rightParameter =>
    decide (leftParameter = rightParameter)
  | _, _ => false

end StableModTarget

end CollideOScope.Modulation
