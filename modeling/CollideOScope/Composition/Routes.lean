import CollideOScope.Support.Words

/-!
# Identities and image routes

Layers, groups and nodes have stable nonzero identities.  A saved document
names a donor layer by its position in the stack, a live one by its identity.
A live route keeps the saved position it came from, so a donor that is lost
becomes a tombstone that still names it.
-/

namespace CollideOScope.Composition

abbrev StableLayerId := {id : ℕ // 0 < id ∧ id ≤ u64Max}

abbrev GroupId := {id : ℕ // 0 < id ∧ id ≤ u64Max}

abbrev NodeId := {id : ℕ // 0 < id ∧ id ≤ u64Max}

instance : LawfulBEq {id : ℕ // 0 < id ∧ id ≤ u64Max} := inferInstance

def maxSavedLayerPosition : ℕ := 4095

abbrev SavedLayerPosition := {position : ℕ // position ≤ maxSavedLayerPosition}

/-- `GroupId::new`, on the values of a 64-bit cursor. -/
def GroupId.new (value : ℕ) : Option GroupId :=
  if h : 0 < value ∧ value ≤ u64Max then some ⟨value, h⟩ else none

/-- `checked_add(1).unwrap_or(0)`: the next cursor, zero when exhausted. -/
def nextCursor (value : ℕ) : ℕ := if value + 1 ≤ u64Max then value + 1 else 0

inductive LayerImageStage
  | preLocalEffects | postLocalEffects
  deriving DecidableEq

inductive EdgeTiming
  | currentFrame | previousFrame
  deriving DecidableEq

inductive SavedImageSource
  | selectedLayer (layerPosition : SavedLayerPosition) (stage : LayerImageStage)
  | missingSelectedLayer (savedPosition : SavedLayerPosition)
      (stage : LayerImageStage)
  | oneBelow | allBelow
  | groupOutput (groupId : GroupId)
  | missingGroupOutput (groupId : GroupId)
  | cleanProgram | gestureCanvas | programTap
  deriving DecidableEq

structure SavedImageTap where
  source : SavedImageSource
  timing : EdgeTiming
  deriving DecidableEq

inductive ResolvedImageSource
  | selectedLayer (layerId : StableLayerId) (savedPosition : SavedLayerPosition)
      (stage : LayerImageStage)
  | missingSelectedLayer (savedPosition : SavedLayerPosition)
      (stage : LayerImageStage)
  | oneBelow | allBelow
  | groupOutput (groupId : GroupId)
  | missingGroupOutput (groupId : GroupId)
  | cleanProgram | gestureCanvas | programTap
  deriving DecidableEq

structure ResolvedImageTap where
  source : ResolvedImageSource
  timing : EdgeTiming
  deriving DecidableEq

namespace SavedImageTap

def toRuntime (tap : SavedImageTap) (layerAtPosition : SavedLayerPosition → Option StableLayerId)
    (groupExists : GroupId → Bool) : ResolvedImageTap :=
  let source :=
    match tap.source with
    | .selectedLayer position stage =>
      match layerAtPosition position with
      | none => .missingSelectedLayer position stage
      | some layerId => .selectedLayer layerId position stage
    | .missingSelectedLayer position stage => .missingSelectedLayer position stage
    | .oneBelow => .oneBelow
    | .allBelow => .allBelow
    | .groupOutput groupId =>
      if groupExists groupId then .groupOutput groupId
      else .missingGroupOutput groupId
    | .missingGroupOutput groupId => .missingGroupOutput groupId
    | .cleanProgram => .cleanProgram
    | .gestureCanvas => .gestureCanvas
    | .programTap => .programTap
  ⟨source, tap.timing⟩

def referencedGroup (tap : SavedImageTap) : Option GroupId :=
  match tap.source with
  | .groupOutput groupId => some groupId
  | .missingGroupOutput groupId => some groupId
  | _ => none

end SavedImageTap

namespace ResolvedImageTap

def toSaved (tap : ResolvedImageTap) (positionOfLayer : StableLayerId → Option SavedLayerPosition) :
    SavedImageTap :=
  let source :=
    match tap.source with
    | .selectedLayer layerId savedPosition stage =>
      match positionOfLayer layerId with
      | none => .missingSelectedLayer savedPosition stage
      | some position => .selectedLayer position stage
    | .missingSelectedLayer position stage => .missingSelectedLayer position stage
    | .oneBelow => .oneBelow
    | .allBelow => .allBelow
    | .groupOutput groupId => .groupOutput groupId
    | .missingGroupOutput groupId => .missingGroupOutput groupId
    | .cleanProgram => .cleanProgram
    | .gestureCanvas => .gestureCanvas
    | .programTap => .programTap
  ⟨source, tap.timing⟩

end ResolvedImageTap

inductive SavedMotionDonor
  | none
  | selected (savedPosition : SavedLayerPosition)
  | missing (savedPosition : SavedLayerPosition)
  deriving DecidableEq

inductive MotionDonor
  | none
  | selected (layerId : StableLayerId) (savedPosition : SavedLayerPosition)
  | missing (savedPosition : SavedLayerPosition)
  deriving DecidableEq

def SavedMotionDonor.toRuntime (donor : SavedMotionDonor)
    (layerAtPosition : SavedLayerPosition → Option StableLayerId) :
    MotionDonor :=
  match donor with
  | .none => .none
  | .selected position =>
    match layerAtPosition position with
    | .none => .missing position
    | some layerId => .selected layerId position
  | .missing position => .missing position

def SavedMotionDonor.fromRuntime (donor : MotionDonor)
    (positionOfLayer : StableLayerId → Option SavedLayerPosition) :
    SavedMotionDonor :=
  match donor with
  | .none => .none
  | .selected layerId savedPosition =>
    match positionOfLayer layerId with
    | .none => .missing savedPosition
    | some position => .selected position
  | .missing position => .missing position

end CollideOScope.Composition
