import CollideOScope.Support.Checks
import CollideOScope.Support.Words

/-!
# Node kinds and what they cost

Every node kind declares what one node of it costs: passes, texture lookups, and
the textures it binds at once.  A rack adds up what its enabled nodes cost.  A
kind with a pass of its own is held to limits of its own.
-/

namespace CollideOScope.Composition

open Checks

inductive NodeKindTag
  | legacyCanonical | legacyTemporal | transform | digitalColor | key | cellular
  | shift | grain | mask | displace | symmetry | residual | study
  | scanProcessor | blockDct | pixelSort | avalanche
  deriving DecidableEq

def NodeKindTag.occupiesDedicatedPass : NodeKindTag → Bool
  | symmetry | study | scanProcessor | blockDct | pixelSort | avalanche => true
  | legacyCanonical | legacyTemporal | transform | digitalColor | key
  | cellular | shift | grain | mask | residual | displace => false

structure NodeResourceBudget where
  fullFramePasses : ℕ
  logicalTextureLookupsPerPixel : ℕ
  textureSamplesPerPixel : ℕ
  sampledTexturesInPass : ℕ
  (crossInputTaps reducedResolutionPasses reducedResolutionSurfaces : ℕ)

/-- A premultiplied bilinear lookup is four loads. -/
def premultipliedBilinearTextureOps : ℕ := 4

/-- The budgets of `NODE_KIND_DESCRIPTORS`. -/
def NodeKindTag.budget : NodeKindTag → NodeResourceBudget
  | legacyCanonical => ⟨1, 12, 12, 1, 0, 0, 0⟩
  | legacyTemporal => ⟨1, 6, 9, 3, 1, 0, 0⟩
  | transform => ⟨1, 2, premultipliedBilinearTextureOps * 2, 1, 0, 0, 0⟩
  | digitalColor => ⟨1, 4, premultipliedBilinearTextureOps * 4, 1, 0, 0, 0⟩
  | key => ⟨1, 1, premultipliedBilinearTextureOps, 1, 0, 0, 0⟩
  | cellular => ⟨1, 2, premultipliedBilinearTextureOps * 2, 1, 0, 0, 0⟩
  | shift => ⟨1, 2, premultipliedBilinearTextureOps * 2, 1, 0, 0, 0⟩
  | grain => ⟨1, 1, premultipliedBilinearTextureOps, 1, 0, 0, 0⟩
  | mask => ⟨1, 2, premultipliedBilinearTextureOps + 1, 2, 1, 0, 0⟩
  | displace => ⟨1, 3, premultipliedBilinearTextureOps * 3, 2, 1, 0, 0⟩
  | residual => ⟨1, 3, premultipliedBilinearTextureOps * 3, 3, 2, 2, 2⟩
  | symmetry => ⟨1, 4, premultipliedBilinearTextureOps * 2 + 2, 8, 2, 0, 0⟩
  | study => ⟨1, 8, 8, 3, 0, 0, 0⟩
  | scanProcessor => ⟨2, 2, 2, 2, 0, 0, 0⟩
  | blockDct => ⟨4, 17, 17, 2, 0, 0, 0⟩
  | pixelSort => ⟨1, 34, 34, 1, 0, 0, 0⟩
  | avalanche => ⟨1, 65, 65, 2, 0, 0, 0⟩

def maxLogicalTextureLookupsPerRack : ℕ := 32

def maxTextureSamplesPerRack : ℕ :=
  maxLogicalTextureLookupsPerRack * premultipliedBilinearTextureOps

def maxSampledTexturesPerPass : ℕ := 3

def maxSampledTexturesPerDedicatedPass : ℕ := 8

def maxLogicalTextureLookupsPerDedicatedPass : ℕ := 65

structure BudgetNode where
  tag : NodeKindTag
  enabled : Bool

inductive RackBudgetError
  | resourceOverflow
  | rackLogicalLookupBudget (lookups limit : ℕ)
  | rackSampleBudget (samples limit : ℕ)
  | passTextureBudget (textures limit : ℕ)
  | dedicatedPassTextureBudget (textures limit : ℕ)

structure RackResourceBudget where
  fullFramePasses : ℕ
  logicalTextureLookupsPerPixel : ℕ
  textureSamplesPerPixel : ℕ
  maxSampledTexturesInPass : ℕ
  maxSampledTexturesInDedicatedPass : ℕ
  ordinaryLogicalTextureLookupsPerPixel : ℕ
  ordinaryTextureSamplesPerPixel : ℕ
  maxLogicalLookupsInDedicatedPass : ℕ
  (crossInputTaps reducedResolutionPasses reducedResolutionSurfaces : ℕ)

namespace RackResourceBudget

def empty : RackResourceBudget := ⟨0, 0, 0, 0, 0, 0, 0, 0, 0, 0, 0⟩

def add (total charge : ℕ) : Except RackBudgetError ℕ :=
  require (checkedAddU32 total charge) .resourceOverflow

/-- What is held to the limits of a rack, or to those of a pass of its own. -/
def chargeLookups (result : RackResourceBudget) (tag : NodeKindTag) (budget : NodeResourceBudget) :
    Except RackBudgetError RackResourceBudget := do
  if tag.occupiesDedicatedPass then
    return { result with
      maxLogicalLookupsInDedicatedPass :=
        max result.maxLogicalLookupsInDedicatedPass budget.logicalTextureLookupsPerPixel }
  else
    let lookups ← add result.ordinaryLogicalTextureLookupsPerPixel
      budget.logicalTextureLookupsPerPixel
    let samples ← add result.ordinaryTextureSamplesPerPixel
      budget.textureSamplesPerPixel
    return { result with
      ordinaryLogicalTextureLookupsPerPixel := lookups
      ordinaryTextureSamplesPerPixel := samples }

def chargeSampledTextures (result : RackResourceBudget) (tag : NodeKindTag)
    (textures : ℕ) : RackResourceBudget :=
  if tag.occupiesDedicatedPass then
    { result with
      maxSampledTexturesInDedicatedPass := max result.maxSampledTexturesInDedicatedPass textures }
  else { result with maxSampledTexturesInPass := max result.maxSampledTexturesInPass textures }

def chargeNode (result : RackResourceBudget) (node : BudgetNode) :
    Except RackBudgetError RackResourceBudget := do
  let budget := node.tag.budget
  let passes ← add result.fullFramePasses budget.fullFramePasses
  let lookups ← add result.logicalTextureLookupsPerPixel
    budget.logicalTextureLookupsPerPixel
  let samples ← add result.textureSamplesPerPixel budget.textureSamplesPerPixel
  let charged ← chargeLookups { result with
    fullFramePasses := passes
    logicalTextureLookupsPerPixel := lookups
    textureSamplesPerPixel := samples } node.tag budget
  let textured := chargeSampledTextures charged node.tag
    budget.sampledTexturesInPass
  let taps ← add textured.crossInputTaps budget.crossInputTaps
  let reducedPasses ← add textured.reducedResolutionPasses
    budget.reducedResolutionPasses
  let reducedSurfaces ← add textured.reducedResolutionSurfaces
    budget.reducedResolutionSurfaces
  return { textured with
    crossInputTaps := taps
    reducedResolutionPasses := reducedPasses
    reducedResolutionSurfaces := reducedSurfaces }

def check (result : RackResourceBudget) : Except RackBudgetError Unit := do
  refuse (maxLogicalTextureLookupsPerRack < result.ordinaryLogicalTextureLookupsPerPixel)
    (.rackLogicalLookupBudget result.ordinaryLogicalTextureLookupsPerPixel
      maxLogicalTextureLookupsPerRack)
  refuse (maxTextureSamplesPerRack < result.ordinaryTextureSamplesPerPixel)
    (.rackSampleBudget result.ordinaryTextureSamplesPerPixel maxTextureSamplesPerRack)
  refuse (maxLogicalTextureLookupsPerDedicatedPass < result.maxLogicalLookupsInDedicatedPass)
    (.rackLogicalLookupBudget result.maxLogicalLookupsInDedicatedPass
      maxLogicalTextureLookupsPerDedicatedPass)
  refuse (maxSampledTexturesPerPass < result.maxSampledTexturesInPass)
    (.passTextureBudget result.maxSampledTexturesInPass maxSampledTexturesPerPass)
  refuse (maxSampledTexturesPerDedicatedPass < result.maxSampledTexturesInDedicatedPass)
    (.dedicatedPassTextureBudget result.maxSampledTexturesInDedicatedPass
      maxSampledTexturesPerDedicatedPass)

end RackResourceBudget

def resourceBudget (nodes : List BudgetNode) :
    Except RackBudgetError RackResourceBudget := do
  let result ← (nodes.filter BudgetNode.enabled).foldlM
    RackResourceBudget.chargeNode .empty
  result.check
  return result

end CollideOScope.Composition
