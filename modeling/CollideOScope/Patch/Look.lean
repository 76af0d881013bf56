import CollideOScope.Composition.Resolve
import CollideOScope.Morph.CompositionValues
import CollideOScope.Patch.DonorRoutes
import CollideOScope.Support.KeyedUpdates

/-!
# Recalling a look

A look takes the values of a patch over onto the layers, the racks and the
groups of a live show.  Layers and layer racks are met by position, groups by
identity.  A rack is written by the strict writer of racks, and a group where
its members, its matte and its rack are wired as the saved ones; the summary
lists what was applied and what was skipped.
-/

namespace CollideOScope.Patch

open List Composition Morph
open F32 (finiteClamp)

structure LookLayer extends LayerConfig where
  rack : Option Composition.SavedVisualRack

/-- The sections of a patch that a look reads. -/
structure LookSections where
  masterRack : Option Composition.SavedVisualRack
  layers : List LookLayer
  temporal : Option TemporalConfig
  composition : Option CompositionTree

/-- What a live show has of racks and groups. -/
structure VisualState where
  masterRack : RuntimeVisualRack
  layerRacks : List RuntimeVisualRack
  composition : RuntimeComposition

namespace LookSections

def effectiveMasterRack (patch : LookSections) : Composition.SavedVisualRack :=
  patch.masterRack.getD (.syntheticLegacy .master)

end LookSections

def LookLayer.effectiveRack (layer : LookLayer) : Composition.SavedVisualRack :=
  layer.rack.getD (.syntheticLegacy .layer)

/-- `apply_motion_look`: the donors stay. -/
def applyMotionLook (config : MotionConfig) (live : MotionParams) : MotionParams :=
  let given := (MotionConfig.toParams config).sanitized
  { given with
    transplant := { given.transplant with donor := live.transplant.donor }
    collider :=
      { given.collider with
        inputA := live.collider.inputA
        inputB := live.collider.inputB } }

/-- `apply_layer_matte_look_values`: a matte is written where its route is the
saved one. -/
def applyLayerMatteLookValues (layerAt : SavedLayerPosition → Option StableLayerId)
    (saved : LayerMatteConfig) (live : LayerMatte ImageInput) :
    Bool × LayerMatte ImageInput :=
  let sampled := saved.toRuntime layerAt
  if sampled.enabled ≠ live.enabled ∨ sampled.input ≠ live.input ∨
      sampled.channel ≠ live.channel ∨ sampled.invert ≠ live.invert then
    (false, live)
  else
    (true,
      { live with
        amount := sampled.amount
        threshold := sampled.threshold
        softness := sampled.softness })

def withDonors (given live : MotionParams) : MotionParams :=
  { given with
    transplant := { given.transplant with donor := live.transplant.donor }
    collider :=
      { given.collider with
        inputA := live.collider.inputA
        inputB := live.collider.inputB } }

theorem sanitized_applyMotionLook (config : MotionConfig) (live : MotionParams) :
    (applyMotionLook config live).sanitized = applyMotionLook config live := by
  have hlook : applyMotionLook config live =
      (withDonors (MotionConfig.toParams config) live).sanitized := rfl
  rw [hlook, MotionBlock.sanitized_sanitized]

/-- The loop of `apply_look`: the motion block of a layer, where the patch has
one for it. -/
def lookMotion (live : MotionParams) : Option MotionConfig → MotionParams
  | none => live
  | some config => applyMotionLook config live

theorem sanitized_lookMotion {live : MotionParams} (h : live.sanitized = live)
    (config : Option MotionConfig) :
    (lookMotion live config).sanitized = lookMotion live config := by
  cases config with
  | none => exact h
  | some config => exact sanitized_applyMotionLook config live

theorem sanitized_applyLayerMatteLookValues (layerAt : SavedLayerPosition → Option StableLayerId)
    (saved : LayerMatteConfig) {live : LayerMatte ImageInput} (h : live.sanitized = live) :
    (applyLayerMatteLookValues layerAt saved live).2.sanitized =
      (applyLayerMatteLookValues layerAt saved live).2 := by
  by_cases hdiffers : (saved.toRuntime layerAt).enabled ≠ live.enabled ∨
      (saved.toRuntime layerAt).input ≠ live.input ∨
      (saved.toRuntime layerAt).channel ≠ live.channel ∨
      (saved.toRuntime layerAt).invert ≠ live.invert
  · have hkept : applyLayerMatteLookValues layerAt saved live = (false, live) := if_pos hdiffers
    rw [hkept]
    exact h
  · have hwrit : applyLayerMatteLookValues layerAt saved live =
        (true, saved.toRuntime layerAt) := by
      simp only [not_or, not_not] at hdiffers
      obtain ⟨henab, hinp, hchannel, hinvert⟩ := hdiffers
      simp only [applyLayerMatteLookValues]
      rw [if_neg (by simp [henab, hinp, hchannel, hinvert]), ← henab, ← hinp, ← hchannel, ← hinvert]
    rw [hwrit]
    exact LayerMatte.sanitized_toRuntime saved layerAt

/-- What `apply_look` makes of a layer. -/
def LiveLayer.applyLook (layerAt : SavedLayerPosition → Option StableLayerId)
    (config : LayerConfig) (layer : LiveLayer) : LiveLayer where
  id := layer.id
  motion := lookMotion layer.motion config.motion
  matte := (applyLayerMatteLookValues layerAt config.matte layer.matte).2
  motion_bounded := sanitized_lookMotion layer.motion_bounded config.motion
  matte_bounded := sanitized_applyLayerMatteLookValues layerAt config.matte layer.matte_bounded

/-- The loop of `apply_positional_looks`. -/
def applyPositionalLooks (layerAt : SavedLayerPosition → Option StableLayerId) :
    List LookLayer → List LiveLayer → List LiveLayer
  | config :: configs, layer :: layers =>
    layer.applyLook layerAt config.toLayerConfig ::
      applyPositionalLooks layerAt configs layers
  | _, layers => layers

/-- What `apply_look` makes of the temporal parameters: their routes stay. -/
def lookTemporal (live : TemporalParams) : Option TemporalConfig → TemporalParams
  | none => live
  | some config =>
    let given := config.toParams
    ⟨{ given.originals with
      garden :=
        { given.originals.garden with
          matteRoute := live.originals.garden.matteRoute
          motionRoute := live.originals.garden.motionRoute }
      score := { given.originals.score with loopDriver := live.originals.score.loopDriver } }⟩

theorem sanitized_lookTemporal {live : TemporalParams}
    (h : live.originals.sanitized = live.originals) (config : Option TemporalConfig) :
    (lookTemporal live config).originals.sanitized = (lookTemporal live config).originals := by
  cases config with
  | none => exact h
  | some config =>
    have hlook : (lookTemporal live (some config)).originals =
        ((config.originals.getD TemporalOriginalsConfig.default).mapRoutes
          (fun _ => live.originals.garden.matteRoute)
          (fun _ => live.originals.garden.motionRoute)
          fun _ => live.originals.score.loopDriver).sanitized := rfl
    rw [hlook, TemporalOriginals.sanitized_sanitized]

theorem map_id_applyPositionalLooks (layerAt : SavedLayerPosition → Option StableLayerId)
    (configs : List LookLayer) (layers : List LiveLayer) :
    (applyPositionalLooks layerAt configs layers).map LiveLayer.id = layers.map LiveLayer.id := by
  induction configs generalizing layers with
  | nil => cases layers <;> rfl
  | cons config configs ih =>
    cases layers with
    | nil => rfl
    | cons layer layers =>
      simp only [applyPositionalLooks, map_cons, ih]
      rfl

theorem nodup_applyPositionalLooks {H : Type} (live : LiveShow H) (configs : List LookLayer) :
    ((applyPositionalLooks live.layerAt configs live.layers).map LiveLayer.id).Nodup := by
  rw [map_id_applyPositionalLooks]
  exact live.ids_nodup

def LookSections.applyLook {H : Type} (patch : LookSections) (live : LiveShow H) : LiveShow H where
  layers := applyPositionalLooks live.layerAt patch.layers live.layers
  masterMotion := live.masterMotion
  temporal := lookTemporal live.temporal patch.temporal
  graph := live.graph
  ids_nodup := nodup_applyPositionalLooks live patch.layers
  masterMotion_bounded := live.masterMotion_bounded
  originals_bounded := sanitized_lookTemporal live.originals_bounded patch.temporal

inductive LookRackScope
  | master
  | layer (layerId : StableLayerId)
  | group (groupId : GroupId)

structure LookNodeRef where
  scope : LookRackScope
  nodeId : NodeId

structure LookApplySummary where
  mappedLayers : ℕ
  unusedPatchLayers : ℕ
  untouchedLiveLayers : ℕ
  (appliedRacks skippedRacks appliedGroups skippedGroups : ℕ)
  (appliedGroupIds skippedGroupIds : List GroupId)
  (appliedNodes skippedNodes : List LookNodeRef)
  (appliedBusCrossfade skippedBusCrossfade : Bool)

/-- A saved rack that a look considers: where it belongs, and its nodes. -/
structure LookUnit where
  scope : LookRackScope
  nodeIds : List NodeId

def LookUnit.refs (unit : LookUnit) : List LookNodeRef :=
  unit.nodeIds.map (LookNodeRef.mk unit.scope)

def LookUnit.ofRack (scope : LookRackScope) (rack : Composition.SavedVisualRack) : LookUnit :=
  ⟨scope, rack.nodes.map VisualNode.stableId⟩

def LookUnit.ofGroup (group : SavedGroup) : LookUnit := .ofRack (.group group.id) group.body.rack

namespace LookApplySummary

/-- The summary of `apply_positional_looks`. -/
def positional (saved live : ℕ) : LookApplySummary :=
  ⟨min saved live, saved - min saved live, live - min saved live, 0, 0, 0, 0,
    [], [], [], [], false, false⟩

def recordLookRackNodes (summary : LookApplySummary) (unit : LookUnit)
    (applied : Bool) : LookApplySummary :=
  if applied then { summary with appliedNodes := summary.appliedNodes ++ unit.refs }
  else { summary with skippedNodes := summary.skippedNodes ++ unit.refs }

def recordRack (summary : LookApplySummary) (unit : LookUnit) (applied : Bool) : LookApplySummary :=
  let summary :=
    if applied then { summary with appliedRacks := summary.appliedRacks + 1 }
    else { summary with skippedRacks := summary.skippedRacks + 1 }
  summary.recordLookRackNodes unit applied

/-- The racks of the layers are recorded in the order of the loop. -/
def recordRacks (summary : LookApplySummary) (units : List LookUnit)
    (verdicts : List Bool) : LookApplySummary :=
  (units.zip verdicts).foldl (fun summary entry => summary.recordRack entry.1 entry.2) summary

def recordGroup (summary : LookApplySummary) (group : SavedGroup)
    (applied : Bool) : LookApplySummary :=
  let summary :=
    if applied then
      { summary with
        appliedGroups := summary.appliedGroups + 1
        appliedGroupIds := summary.appliedGroupIds ++ [group.id] }
    else
      { summary with
        skippedGroups := summary.skippedGroups + 1
        skippedGroupIds := summary.skippedGroupIds ++ [group.id] }
  summary.recordLookRackNodes (.ofGroup group) applied

/-- The groups of a composition are recorded in the order of the loop. -/
def recordGroups (summary : LookApplySummary)
    (groups : List SavedGroup) (verdicts : List Bool) : LookApplySummary :=
  (groups.zip verdicts).foldl (fun summary entry => summary.recordGroup entry.1 entry.2) summary

end LookApplySummary

def groupNodeRoutesMatch (sampled live : NodeKind ResolvedImageTap MotionDonor) : Bool :=
  match sampled, live with
  | .mask (.image sampled), .mask (.image live) =>
    decide (sampled.tap = live.tap) &&
      decide (sampled.channel = live.channel) && sampled.invert == live.invert
  | .mask (.rectangle _), .mask (.rectangle _) => true
  | .mask (.ellipse _), .mask (.ellipse _) => true
  | .mask _, .mask _ => false
  | .displace sampled, .displace live => decide (sampled.tap = live.tap)
  | .symmetry sampled, .symmetry live =>
    decide (sampled.donors.x = live.donors.x) && decide (sampled.donors.y = live.donors.y) &&
      decide (sampled.motion.x = live.motion.x) &&
      decide (sampled.motion.y = live.motion.y) &&
      decide (sampled.sourceMask.sanitized = live.sourceMask.sanitized) &&
      decide (sampled.motionMask = live.motionMask)
  | .residual sampled, .residual live =>
    decide (sampled.structureTap = live.structureTap) && decide (sampled.detail = live.detail)
  | _, _ => true

/-- `runtime_group_visual_topology_matches`. -/
def groupVisualTopologyMatches (sampled live : LiveGroup) : Bool :=
  decide (sampled.id = live.id) && decide (sampled.members = live.members) &&
    matteRoutesMatch sampled.body.matte live.body.matte &&
    decide (sampled.body.rack.nodes.length = live.body.rack.nodes.length) &&
    decide (topologySignature sampled.body.rack.nodes = topologySignature live.body.rack.nodes) &&
    (sampled.body.rack.nodes.zip live.body.rack.nodes).all fun pair =>
      decide (pair.1.stableId = pair.2.stableId) && decide (pair.1.kind.tag = pair.2.kind.tag) &&
        groupNodeRoutesMatch pair.1.kind pair.2.kind

/-- A group with what is written before its rack. -/
def withOpacityAndTransform (sampled live : LiveGroup) : LiveGroup :=
  { live with
    body :=
      { live.body with
        opacity := sampled.body.opacity
        transform := sampled.body.transform } }

/-- `apply_runtime_group_look_values`: the opacity and the transform are written
before the rack, and the matte only where the rack was not refused. -/
def applyRuntimeGroupLookValues (sampled live : LiveGroup) : Option (Bool × LiveGroup) :=
  if groupVisualTopologyMatches sampled live then
    let live := withOpacityAndTransform sampled live
    (applyRackValuesStrict sampled.body.rack live.body.rack).map fun result =>
      let live := { live with body := { live.body with rack := result.2 } }
      if result.1 then
        (true,
          { live with
            body := { live.body with matte := applyMatte sampled.body.matte live.body.matte } })
      else (false, live)
  else some (false, live)

section

variable (layerAt : SavedLayerPosition → Option StableLayerId) (groupExists : GroupId → Bool)

/-- A saved group as it would live here; `none` where a member is lost. -/
def sampledGroup (saved : SavedGroup) : Option LiveGroup :=
  ((saved.members.mapM layerAt).bind fun members =>
    (runtimeGroupMembers members).toOption).map fun members =>
      { id := saved.id
        members := members
        body := saved.body.resolveRoutes layerAt groupExists }

/-- What the loop over the groups does with a saved group and the live one of
its identity. -/
def applySavedGroup (saved : SavedGroup) (live : LiveGroup) : Option (Bool × LiveGroup) :=
  match sampledGroup layerAt groupExists saved with
  | none => some (false, live)
  | some sampled => applyRuntimeGroupLookValues sampled live

def lookRootIdentityMatches (saved : CompositionTree) (live : RuntimeComposition) : Bool :=
  decide (saved.tree.root.length = live.tree.root.length) &&
    (saved.tree.root.zip live.tree.root).all fun
      | (.layer layer _, .layer layerId _) => decide (layerAt layer = some layerId)
      | (.group savedId, .group liveId) => decide (savedId = liveId)
      | _ => false

end

/-- The crossfade and the mixer of a saved composition, bounded by their
setters. -/
def withCrossfadeAndMixer (saved : CompositionTree)
    (live : RuntimeComposition) : RuntimeComposition :=
  { live with
    busCrossfade := finiteClamp saved.busCrossfade 0.5 0 1
    mixer := saved.mixer.sanitized }

def applySavedCompositionLook (layerAt : SavedLayerPosition → Option StableLayerId)
    (saved : CompositionTree) (live : RuntimeComposition) (summary : LookApplySummary) :
    Option (LookApplySummary × RuntimeComposition) := do
  let rootMatches := lookRootIdentityMatches layerAt saved live
  let summary :=
    { summary with
      appliedBusCrossfade := summary.appliedBusCrossfade || rootMatches
      skippedBusCrossfade := summary.skippedBusCrossfade || !rootMatches }
  let live := if rootMatches then withCrossfadeAndMixer saved live else live
  let groupExists := fun groupId => (live.tree.group groupId).isSome
  let (verdicts, groups) ←
    updateEach Group.id Group.id (applySavedGroup layerAt groupExists)
      saved.tree.groups live.tree.groups
  return (summary.recordGroups saved.tree.groups verdicts,
    { live with tree := { live.tree with groups := groups } })

def lookComposition (layerAt : SavedLayerPosition → Option StableLayerId)
    (saved : Option CompositionTree) (live : RuntimeComposition) (summary : LookApplySummary) :
    Option (LookApplySummary × RuntimeComposition) :=
  match saved with
  | none => some (summary, live)
  | some saved => applySavedCompositionLook layerAt saved live summary

def applyLayerRacks (resolve : Composition.SavedVisualRack → RuntimeVisualRack) :
    List Composition.SavedVisualRack → List RuntimeVisualRack →
      Option (List Bool × List RuntimeVisualRack)
  | saved :: rest, live :: lives => do
    let (applied, after) ← applyRackValuesStrict (resolve saved) live
    let (verdicts, afters) ← applyLayerRacks resolve rest lives
    return (applied :: verdicts, after :: afters)
  | _, lives => some ([], lives)

namespace LookSections

def mappedRacks (patch : LookSections) (live : LiveShow VisualState) :
    List Composition.SavedVisualRack :=
  (patch.layers.map LookLayer.effectiveRack).take
    (min live.layers.length live.graph.layerRacks.length)

def masterUnit (patch : LookSections) : LookUnit := .ofRack .master patch.effectiveMasterRack

def layerUnits (patch : LookSections) (live : LiveShow VisualState) : List LookUnit :=
  zipWith (fun layerId rack => .ofRack (.layer layerId) rack) live.ids (patch.mappedRacks live)

/-- `apply_look_with_composition`; the result is `none` where the writer of
racks panics. -/
def applyLookWithComposition (patch : LookSections) (live : LiveShow VisualState) :
    Option (LookApplySummary × LiveShow VisualState) := do
  let shown := patch.applyLook live
  let summary := LookApplySummary.positional patch.layers.length
    live.layers.length
  let groupExists := fun groupId => (live.graph.composition.tree.group groupId).isSome
  let resolve : Composition.SavedVisualRack → RuntimeVisualRack :=
    VisualRack.resolveRoutes shown.layerAt groupExists
  let (applied, masterRack) ←
    applyRackValuesStrict (resolve patch.effectiveMasterRack) live.graph.masterRack
  let summary := summary.recordRack patch.masterUnit applied
  let mapped := patch.mappedRacks live
  let (verdicts, layerRacks) ←
    applyLayerRacks resolve mapped live.graph.layerRacks
  let summary := summary.recordRacks (patch.layerUnits live) verdicts
  let summary :=
    { summary with skippedRacks := summary.skippedRacks + (patch.layers.length - mapped.length) }
  let (summary, composition) ←
    lookComposition shown.layerAt patch.composition live.graph.composition summary
  return (summary, { shown with graph := ⟨masterRack, layerRacks, composition⟩ })

end LookSections

end CollideOScope.Patch
