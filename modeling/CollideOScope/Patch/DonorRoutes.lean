import CollideOScope.Patch.Temporal

/-!
# Donors across saving and loading

A show is captured as a patch and applied to a stack of as many layers.  Every
donor is saved by the position of its layer, so it comes back as the layer that
took this position.  The capture of the master's motion block takes the position
that each donor was last saved at instead, which need not be where the donor
stands now.
-/

namespace CollideOScope.Patch

open List Composition Morph Checks MotionConfig

/-- A layer: its identity, and what of it names donors.  The setters of a live
layer bound every value they write. -/
structure LiveLayer where
  id : StableLayerId
  motion : MotionParams
  matte : LayerMatte ImageInput
  motion_bounded : motion.sanitized = motion
  matte_bounded : matte.sanitized = matte

/-- A show: its layers, and what of the program names donors.  The rest of the
show, its racks, its composition and its modulation, is `graph`. -/
structure LiveShow (H : Type) where
  layers : List LiveLayer
  masterMotion : MotionParams
  temporal : TemporalParams
  graph : H
  ids_nodup : (layers.map LiveLayer.id).Nodup
  masterMotion_bounded : masterMotion.sanitized = masterMotion
  originals_bounded : temporal.originals.sanitized = temporal.originals

structure LayerConfig where
  motion : Option MotionConfig
  matte : LayerMatteConfig

/-- The sections of a patch that name donors. -/
structure DonorSections where
  masterMotion : Option MotionConfig
  layers : List LayerConfig
  temporal : Option TemporalConfig

structure PatchState (G : Type) extends DonorSections where
  graph : G

def positionOfLayer (ids : List StableLayerId) (wanted : StableLayerId) :
    Option SavedLayerPosition :=
  (ids.idxOf? wanted).bind Modulation.savedLayerPosition

/-- `SavedLayerPosition::resolve`. -/
def layerAtPosition (ids : List StableLayerId) (position : SavedLayerPosition) :
    Option StableLayerId :=
  ids[position.val]?

variable {G H : Type}

namespace LiveShow

def ids (live : LiveShow H) : List StableLayerId := live.layers.map LiveLayer.id

def positionOf (live : LiveShow H) : StableLayerId → Option SavedLayerPosition :=
  positionOfLayer live.ids

def layerAt (live : LiveShow H) : SavedLayerPosition → Option StableLayerId :=
  layerAtPosition live.ids

end LiveShow

/-- `(!motion.is_default()).then_some(motion)`. -/
def authoredMotion (motion : MotionConfig) : Option MotionConfig :=
  if MotionConfig.isDefault motion then none else some motion

/-- What `capture` makes of a layer. -/
def LayerConfig.capture (positionOf : StableLayerId → Option SavedLayerPosition)
    (layer : LiveLayer) : LayerConfig where
  motion := authoredMotion (MotionConfig.fromParamsForCapture layer.motion positionOf)
  matte := layer.matte.captured positionOf

/-- The sections that `capture` and `capture_with_composition_and_motion`
write. -/
def LiveShow.sections (live : LiveShow H) : DonorSections where
  masterMotion := authoredMotion (MotionConfig.fromParams live.masterMotion)
  layers := live.layers.map (LayerConfig.capture live.positionOf)
  temporal := some (TemporalConfig.fromParamsForCapture live.temporal live.positionOf)

/-- `capture_with_composition_and_motion`; `captureGraph` captures the racks,
the composition and the modulation, or refuses. -/
def captureWithCompositionAndMotion (captureGraph : List StableLayerId → H → Except String G)
    (live : LiveShow H) : Except String (PatchState G) := do
  let graph ← captureGraph live.ids live.graph
  return { live.sections with graph }

/-- `apply_to_layer`, then the motion block again with its donors resolved. -/
def LayerConfig.restoredMotion (layerAt : SavedLayerPosition → Option StableLayerId)
    (config : LayerConfig) : MotionParams :=
  match config.motion with
  | none => (MotionConfig.toParams MotionConfig.default).sanitized
  | some motion => MotionConfig.resolveRuntime motion layerAt

/-- What `apply` makes of the temporal parameters. -/
def TemporalConfig.restored (layerAt : SavedLayerPosition → Option StableLayerId)
    (config : TemporalConfig) : TemporalParams :=
  let restored := config.toParams
  match config.originals with
  | none => restored
  | some originals =>
    ⟨{ restored.originals with
      garden :=
        { restored.originals.garden with
          matteRoute := gardenMatteRoute.resolve layerAt originals.garden.matteRoute
          motionRoute := gardenMotionRoute.resolve layerAt originals.garden.motionRoute }
      score :=
        { restored.originals.score with
          loopDriver := loopDriverRoute.resolve layerAt originals.score.loopDriver } }⟩

/-- What `apply` makes of the temporal parameters, whether or not the patch has
a section for them. -/
def restoredTemporal (layerAt : SavedLayerPosition → Option StableLayerId)
    (live : TemporalParams) : Option TemporalConfig → TemporalParams
  | none => live
  | some config => config.restored layerAt

theorem MotionConfig.sanitized_resolveRuntime (config : MotionConfig)
    (layerAt : SavedLayerPosition → Option StableLayerId) :
    (resolveRuntime config layerAt).sanitized = resolveRuntime config layerAt := by
  rw [resolveRuntime_eq, MotionBlock.sanitized_sanitized]

variable (layerAt : SavedLayerPosition → Option StableLayerId)

theorem LayerConfig.sanitized_restoredMotion (config : LayerConfig) :
    (config.restoredMotion layerAt).sanitized = config.restoredMotion layerAt := by
  unfold restoredMotion
  split
  · exact MotionBlock.sanitized_sanitized _
  · exact MotionConfig.sanitized_resolveRuntime _ layerAt

theorem TemporalConfig.restored_some (originals : TemporalOriginalsConfig) :
    (TemporalConfig.restored layerAt ⟨some originals⟩).originals =
      (originals.mapRoutes (gardenMatteRoute.resolve layerAt) (gardenMotionRoute.resolve layerAt)
        (loopDriverRoute.resolve layerAt)).sanitized :=
  rfl

theorem sanitized_restoredTemporal {live : TemporalParams}
    (h : live.originals.sanitized = live.originals) (config : Option TemporalConfig) :
    (restoredTemporal layerAt live config).originals.sanitized =
      (restoredTemporal layerAt live config).originals := by
  match config with
  | none => exact h
  | some ⟨none⟩ => exact TemporalOriginals.sanitized_sanitized _
  | some ⟨some originals⟩ =>
    rw [restoredTemporal, TemporalConfig.restored_some, TemporalOriginals.sanitized_sanitized]

/-- A layer with its motion block and its matte restored. -/
def LiveLayer.restore (layerAt : SavedLayerPosition → Option StableLayerId)
    (config : LayerConfig) (layer : LiveLayer) : LiveLayer where
  id := layer.id
  motion := config.restoredMotion layerAt
  matte := config.matte.toRuntime layerAt
  motion_bounded := config.sanitized_restoredMotion layerAt
  matte_bounded := LayerMatte.sanitized_toRuntime config.matte layerAt

def restoreLayers (layerAt : SavedLayerPosition → Option StableLayerId) :
    List LayerConfig → List LiveLayer → List LiveLayer
  | config :: configs, layer :: layers =>
    layer.restore layerAt config :: restoreLayers layerAt configs layers
  | _, layers => layers

theorem map_id_restoreLayers (configs : List LayerConfig) (layers : List LiveLayer) :
    (restoreLayers layerAt configs layers).map LiveLayer.id = layers.map LiveLayer.id := by
  induction configs generalizing layers with
  | nil => cases layers <;> rfl
  | cons config configs ih =>
    cases layers with
    | nil => rfl
    | cons layer layers =>
      simp only [restoreLayers, map_cons, ih]
      rfl

inductive RestoreError
  | layerCount (required live : ℕ)
  | positionBounds (position : ℕ)
  | graph (error : String)

/-- What `apply_with_composition` demands of the stack: as many layers as the
patch has, each at a position that can be saved. -/
def checkStack (required live : ℕ) : Except RestoreError Unit := do
  refuse (live ≠ required) (.layerCount required live)
  forEach (fun position => refuse (maxSavedLayerPosition < position) (.positionBounds position))
    (range required)

theorem nodup_restoreLayers (live : LiveShow H)
    (layerAt : SavedLayerPosition → Option StableLayerId) (configs : List LayerConfig) :
    ((restoreLayers layerAt configs live.layers).map LiveLayer.id).Nodup := by
  rw [map_id_restoreLayers]
  exact live.ids_nodup

/-- What `apply_with_composition_and_motion` writes. -/
def PatchState.restore (patch : PatchState G) (live : LiveShow H) (graph : H) : LiveShow H where
  layers := restoreLayers live.layerAt patch.layers live.layers
  masterMotion := resolveRuntime (patch.masterMotion.getD default) live.layerAt
  temporal := restoredTemporal live.layerAt live.temporal patch.temporal
  graph := graph
  ids_nodup := nodup_restoreLayers live live.layerAt patch.layers
  masterMotion_bounded := sanitized_resolveRuntime _ _
  originals_bounded := sanitized_restoredTemporal live.layerAt live.originals_bounded patch.temporal

/-- `apply_with_composition_and_motion`; `resolveGraph` resolves the racks, the
composition and the modulation, or refuses. -/
def applyWithCompositionAndMotion (resolveGraph : List StableLayerId → G → H → Except String H)
    (patch : PatchState G) (live : LiveShow H) :
    Except RestoreError (LiveShow H) := do
  checkStack patch.layers.length live.layers.length
  let graph ← (resolveGraph live.ids patch.graph live.graph).mapError .graph
  return patch.restore live graph

end CollideOScope.Patch
