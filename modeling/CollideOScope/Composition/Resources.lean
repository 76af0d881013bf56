import CollideOScope.Composition.NodeKinds
import CollideOScope.Composition.Schedule

/-!
# The surfaces of a frame

The planner declares how many full-frame surfaces a plan needs, from the
dependencies of its image graph and from its taps.  The executor allocates
surfaces tap by tap and refuses a plan whose declared number differs from what
it allocates.
-/

namespace CollideOScope.Composition

open Checks

def maxLogicalTextureLookupsPerFrame : ℕ := 1024

def maxCreativeGpuBytes : ℕ := 512 * 1024 * 1024

def baseCreativeSurfaceLayers : ℕ := 6

def advancedRackSurfaceLayers : ℕ := 2

def advancedProgramHistoryStagingLayers : ℕ := 1

def advancedTemporalCompat8SurfaceLayers : ℕ := 25

structure CreativeResourceLimits where
  maxTextureDimension2d : ℕ
  (maxTextureArrayLayers maxSampledTexturesPerShaderStage maxCreativeBytes : ℕ)

def CreativeResourceLimits.default : CreativeResourceLimits :=
  ⟨8192, 256, maxSampledTexturesPerPass, maxCreativeGpuBytes⟩

inductive ResourcePreflightError
  | zeroDimension
  | dimensionLimit (requested : ℕ × ℕ) (limit : ℕ)
  | rack (index : ℕ) (error : RackBudgetError)
  | frameLogicalLookupBudget (lookups limit : ℕ)
  | frameSampleBudget (samples limit : ℕ)
  | sampledTextureLimit (requested limit : ℕ)
  | textureArrayLayerLimit (requested limit : ℕ)
  | arithmeticOverflow
  | creativeMemoryBudget (bytes limit : ℕ)

structure FrameBudget where
  (passes logicalLookups samples maxTextures maxDedicatedTextures : ℕ)

def chargeRack (frame : FrameBudget) (entry : List BudgetNode × ℕ) :
    Except ResourcePreflightError FrameBudget := do
  let budget ← (resourceBudget entry.1).mapError (.rack entry.2)
  let passes ← require (checkedAddU32 frame.passes budget.fullFramePasses)
    .arithmeticOverflow
  let lookups ← require (checkedAddU32 frame.logicalLookups
    budget.logicalTextureLookupsPerPixel) .arithmeticOverflow
  let samples ← require (checkedAddU32 frame.samples
    budget.textureSamplesPerPixel) .arithmeticOverflow
  return ⟨passes, lookups, samples, max frame.maxTextures budget.maxSampledTexturesInPass,
    max frame.maxDedicatedTextures budget.maxSampledTexturesInDedicatedPass⟩

def validateFrameTextureBudgets (logicalLookups shaderOperations : ℕ) :
    Except ResourcePreflightError Unit := do
  refuse (maxLogicalTextureLookupsPerFrame < logicalLookups)
    (.frameLogicalLookupBudget logicalLookups maxLogicalTextureLookupsPerFrame)
  refuse (maxTextureSamplesPerFrame < shaderOperations)
    (.frameSampleBudget shaderOperations maxTextureSamplesPerFrame)

structure CreativeResourcePlan where
  outputSize : ℕ × ℕ
  fullFramePasses : ℕ
  logicalTextureLookupsPerPixel : ℕ
  textureSamplesPerPixel : ℕ
  retainedSurfaceLayers : ℕ
  (rgba16SurfaceLayers compat8SurfaceLayers creativeBytes : ℕ)

def rgba16Layers (graph : ImageGraphPlan) (additional : ℕ) : Option ℕ := do
  let taps ← checkedAddU64 graph.currentTaps graph.previousTaps
  checkedAddU32 (← checkedAddU32 (← tryFromU32 taps) baseCreativeSurfaceLayers) additional

def creativeBytes (output : ℕ × ℕ) (rgba16 compat8 : ℕ) : Option ℕ := do
  let pixels ← checkedMulU64 output.1 output.2
  checkedAddU64 (← checkedMulU64 (← checkedMulU64 pixels 8) rgba16)
    (← checkedMulU64 (← checkedMulU64 pixels 4) compat8)

def preflightWithSurfaceFormats (output : ℕ × ℕ)
    (racks : List (List BudgetNode)) (graph : ImageGraphPlan)
    (additionalRgba16 additionalCompat8 : ℕ) (limits : CreativeResourceLimits) :
    Except ResourcePreflightError CreativeResourcePlan := do
  refuse (output.1 = 0 ∨ output.2 = 0) .zeroDimension
  refuse (limits.maxTextureDimension2d < output.1 ∨ limits.maxTextureDimension2d < output.2)
    (.dimensionLimit output limits.maxTextureDimension2d)
  let frame ← racks.zipIdx.foldlM chargeRack ⟨0, 0, 0, 0, 0⟩
  validateFrameTextureBudgets frame.logicalLookups frame.samples
  let textureLimit := min limits.maxSampledTexturesPerShaderStage
    maxSampledTexturesPerPass
  refuse (textureLimit < frame.maxTextures) (.sampledTextureLimit frame.maxTextures textureLimit)
  refuse (limits.maxSampledTexturesPerShaderStage < frame.maxDedicatedTextures)
    (.sampledTextureLimit frame.maxDedicatedTextures limits.maxSampledTexturesPerShaderStage)
  let rgba16 ← require (rgba16Layers graph additionalRgba16) .arithmeticOverflow
  let retained ← require (checkedAddU32 rgba16 additionalCompat8)
    .arithmeticOverflow
  refuse (limits.maxTextureArrayLayers < retained)
    (.textureArrayLayerLimit retained limits.maxTextureArrayLayers)
  let bytes ← require (creativeBytes output rgba16 additionalCompat8)
    .arithmeticOverflow
  let byteLimit := min limits.maxCreativeBytes maxCreativeGpuBytes
  refuse (byteLimit < bytes) (.creativeMemoryBudget bytes byteLimit)
  return ⟨output, frame.passes, frame.logicalLookups, frame.samples, retained,
    rgba16, additionalCompat8, bytes⟩

/-- A tap of the previous frame that is staged. -/
def needsStaging (tap : PlannedImageTap) : Bool :=
  match tap.origin.timing, tap.resolved with
  | .currentFrame, _ => false
  | .previousFrame, .programHistory => false
  | .previousFrame, .gestureCanvas => false
  | .previousFrame, .programTap => false
  | .previousFrame, .transparent => false
  | .previousFrame, _ => true

def previousScopeStaging (taps : List PlannedImageTap) : Option ℕ :=
  taps.foldlM (fun count tap => checkedAddU32 count (if needsStaging tap then 1 else 0)) 0

def isProgramHistory (tap : PlannedImageTap) : Bool := tap.resolved = .programHistory

def programHistoryStaging (taps : List PlannedImageTap) : ℕ :=
  (if taps.any isProgramHistory then 1 else 0) * advancedProgramHistoryStagingLayers

/-- The layer that a same-frame tap samples before its local effects. -/
def currentPrelocalDonor (tap : PlannedImageTap) : Option StableLayerId :=
  match tap.origin.timing, tap.resolved with
  | .currentFrame, .selectedLayer layerId .preLocalEffects => some layerId
  | _, _ => none

def currentPrelocalDonors (taps : List PlannedImageTap) : Finset StableLayerId :=
  (taps.filterMap currentPrelocalDonor).toFinset

/-- The surfaces that no dependency stands for. -/
def additionalRgba16 (taps : List PlannedImageTap)
    (temporalDryLayers : List StableLayerId) : Option ℕ := do
  let staging ← previousScopeStaging taps
  let prelocal ← tryFromU32 (currentPrelocalDonors taps).card
  let dry ← tryFromU32 temporalDryLayers.length
  let staged ← checkedAddU32 advancedRackSurfaceLayers staging
  let history ← checkedAddU32 staged (programHistoryStaging taps)
  checkedAddU32 (← checkedAddU32 history prelocal) dry

/-- `resource_preflight` up to the creative plan, which is not changed after
that; `racks` are the racks that it collects. -/
def resourcePreflight (output : ℕ × ℕ) (racks : List (List BudgetNode))
    (graph : ImageGraphPlan) (taps : List PlannedImageTap)
    (temporalDryLayers : List StableLayerId) (limits : CreativeResourceLimits) :
    Except ResourcePreflightError CreativeResourcePlan := do
  let additional ← require (additionalRgba16 taps temporalDryLayers)
    .arithmeticOverflow
  preflightWithSurfaceFormats output racks graph additional
    advancedTemporalCompat8SurfaceLayers limits

def sparseScopes (dependencies : List ImageDependency) : Finset VisualScopeId :=
  (dependencies.map ImageDependency.consumer ++
    (dependencies.map ImageDependency.producer).filter (· ≠ .program)).toFinset

def sparseGraph (dependencies : List ImageDependency) : Except ImageGraphError ImageGraphPlan :=
  validateDependencies (sparseScopes dependencies).sort dependencies .advanced

def TapBacking.surfaces : TapBacking → ℕ
  | current => 1
  | previous => 2
  | transparent => 0
  | programHistory => 0
  | gestureCanvas => 0
  | programTap => 0
  | currentPreLocal _ => 0

def tapSurfaces (taps : List PreparedTap) : ℕ := (taps.map fun tap => tap.backing.surfaces).sum

def prelocalLayer (tap : PreparedTap) : Option StableLayerId :=
  match tap.backing with
  | .currentPreLocal layerId => some layerId
  | _ => none

/-- `prepare_current_prelocal_surfaces`: one surface for each layer. -/
def prepareCurrentPrelocalSurfaces (taps : List PreparedTap) : Finset StableLayerId :=
  (taps.filterMap prelocalLayer).toFinset

/-- The surfaces that the executor allocates; counts are truncated to 32
bits. -/
def actualSurfaceLayers (retainProgramHistory : Bool)
    (taps : List PreparedTap) (currentPrelocalSurfaces temporalDrySurfaces : ℕ) :
    Option ℕ := do
  let base ← checkedAddU32 6 2
  let history ← checkedAddU32 base (2 * if retainProgramHistory then 1 else 0)
  let tapped ← checkedAddU32 history (tapSurfaces taps)
  checkedAddU32 (← checkedAddU32 tapped (currentPrelocalSurfaces % 2 ^ 32))
    (temporalDrySurfaces % 2 ^ 32)

inductive SurfaceLedgerError
  | overflowed
  | mismatch (declared actual : ℕ)

def validateActualSurfaceLedger (plan : CreativeResourcePlan) (retainProgramHistory : Bool)
    (taps : List PreparedTap) (currentPrelocalSurfaces temporalDrySurfaces : ℕ) :
    Except SurfaceLedgerError Unit := do
  let actual ← require (actualSurfaceLayers retainProgramHistory taps
    currentPrelocalSurfaces temporalDrySurfaces) .overflowed
  refuse (actual ≠ plan.rgba16SurfaceLayers) (.mismatch plan.rgba16SurfaceLayers actual)

/-- The check of a plan's taps, as the executor prepares them. -/
def validatePlanLedger (plan : CreativeResourcePlan)
    (taps : List PlannedImageTap) (temporalDryLayers : List StableLayerId) :
    Except SurfaceLedgerError Unit :=
  let prepared := prepareTapSurfaces taps
  validateActualSurfaceLedger plan (taps.any isProgramHistory) prepared
    (prepareCurrentPrelocalSurfaces prepared).card temporalDryLayers.toFinset.card

end CollideOScope.Composition
