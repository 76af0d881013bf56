import CollideOScope.Composition.Capture
import CollideOScope.Composition.VisualGraphs

/-!
# Resolving a saved composition

The members of a live group and the routes of a saved body, resolved against the
layers that live.
-/

namespace CollideOScope.Composition

open Checks

inductive RuntimeCompositionError
  | tooManyGroups (count limit : ℕ)
  | tooManyLayers (count limit : ℕ)
  | duplicateLayer (layerId : StableLayerId)
  | invalid (error : StructureError StableLayerId RackError)
  | invalidNextGroupId (next greatestObserved : ℕ)

/-- `RuntimeGroupMembers::try_from_vec`. -/
def runtimeGroupMembers (entries : List StableLayerId) :
    Except RuntimeCompositionError (List StableLayerId) := do
  refuse (maxCompositionLayers < entries.length)
    (.tooManyLayers entries.length maxCompositionLayers)
  refuseRepeats id .duplicateLayer [] entries
  return entries

def ImageMatte.resolveRoutes (layerAt : SavedLayerPosition → Option StableLayerId)
    (groupExists : GroupId → Bool) (matte : ImageMatte SavedImageTap) :
    ImageMatte ResolvedImageTap :=
  matte.sanitized.mapRoutes (·.toRuntime layerAt groupExists)

def GroupBody.resolveRoutes (layerAt : SavedLayerPosition → Option StableLayerId)
    (groupExists : GroupId → Bool) (body : GroupBody SavedImageTap SavedMotionDonor) :
    GroupBody ResolvedImageTap MotionDonor :=
  { body with
    rack := body.rack.resolveRoutes layerAt groupExists
    matte := body.matte.map (ImageMatte.resolveRoutes layerAt groupExists) }

end CollideOScope.Composition
