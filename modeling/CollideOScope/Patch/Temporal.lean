import CollideOScope.Composition.VisualGraphs
import CollideOScope.Patch.Motion

/-!
# The temporal originals and the mattes of layers

The temporal originals name three donors: the matte and the motion of the
refresh garden, and the layer that drives the collision score.  They are generic
in these routes as motion blocks are in their donors.  A layer matte names one
donor, with no cached position.
-/

namespace CollideOScope.Patch

open Composition Morph
open F32 (finiteClamp)

variable {A A' A'' B B' B'' C C' C'' : Type}

inductive TemporalTopology
  | linear | radial | spiral | contour | folded | kaleidoscopic
  deriving DecidableEq

inductive TemporalInterpolation
  | floor | linear
  deriving DecidableEq

inductive RefreshGardenGate
  | temporalDelta | luma | chroma | cellularRidge | audioEnergy | audioOnset
  | matte | motion
  deriving DecidableEq

inductive CollisionScoreTrigger
  | boundary | downbeat | audioOnset | manual
  deriving DecidableEq

inductive TemporalEventResetMode
  | none | score | memory | all
  deriving DecidableEq

/-- `u8::clamp`. -/
def clampByte (value low high : ℕ) : ℕ :=
  if value < low then low else if high < value then high else value

theorem clampByte_clampByte {low high : ℕ} (h : low ≤ high) (value : ℕ) :
    clampByte (clampByte value low high) low high = clampByte value low high := by
  simp only [clampByte]
  split_ifs <;> omega

structure TemporalLoomParams where
  amount : F32
  topology : TemporalTopology
  interpolation : TemporalInterpolation
  (depth phase scale angle : F32)
  (folds quantization : ℕ)

namespace TemporalLoomParams

def default : TemporalLoomParams := ⟨0, .linear, .floor, 1, 0, 1, 0, 1, 0⟩

def sanitized (p : TemporalLoomParams) : TemporalLoomParams where
  amount := finiteClamp p.amount 0 0 1
  topology := p.topology
  interpolation := p.interpolation
  depth := finiteClamp p.depth 1 0 1
  phase := finiteClamp p.phase 0 (-1000) 1000
  scale := finiteClamp p.scale 1 0.01 100
  angle := finiteClamp p.angle 0 (-180) 180
  folds := clampByte p.folds 1 16
  quantization := min p.quantization 24

/-- The derived `==`. -/
def same (p q : TemporalLoomParams) : Bool :=
  p.amount.eq q.amount && decide (p.topology = q.topology) &&
    decide (p.interpolation = q.interpolation) && p.depth.eq q.depth &&
    p.phase.eq q.phase && p.scale.eq q.scale && p.angle.eq q.angle &&
    decide (p.folds = q.folds) && decide (p.quantization = q.quantization)

@[simp]
theorem sanitized_sanitized (p : TemporalLoomParams) : p.sanitized.sanitized = p.sanitized := by
  simp (disch := decide +kernel) [sanitized, F32.finiteClamp_finiteClamp, clampByte_clampByte]

end TemporalLoomParams

structure CollisionAtlasParams where
  amount : F32
  seed : UInt32
  territories : ℕ
  collision : F32

namespace CollisionAtlasParams

def default : CollisionAtlasParams := ⟨0, 0, 8, 0⟩

def sanitized (p : CollisionAtlasParams) : CollisionAtlasParams where
  amount := finiteClamp p.amount 0 0 1
  seed := p.seed
  territories := clampByte p.territories 1 64
  collision := finiteClamp p.collision 0 0 1

/-- The derived `==`. -/
def same (p q : CollisionAtlasParams) : Bool :=
  p.amount.eq q.amount && decide (p.seed = q.seed) &&
    decide (p.territories = q.territories) && p.collision.eq q.collision

@[simp]
theorem sanitized_sanitized (p : CollisionAtlasParams) : p.sanitized.sanitized = p.sanitized := by
  simp (disch := decide +kernel) [sanitized, F32.finiteClamp_finiteClamp, clampByte_clampByte]

end CollisionAtlasParams

structure LongExposureParams where
  amount : F32
  shutterFrames : ℕ

namespace LongExposureParams

def default : LongExposureParams := ⟨0, 12⟩

def sanitized (p : LongExposureParams) : LongExposureParams where
  amount := finiteClamp p.amount 0 0 1
  shutterFrames := clampByte p.shutterFrames 2 24

/-- The derived `==`. -/
def same (p q : LongExposureParams) : Bool :=
  p.amount.eq q.amount && decide (p.shutterFrames = q.shutterFrames)

@[simp]
theorem sanitized_sanitized (p : LongExposureParams) : p.sanitized.sanitized = p.sanitized := by
  simp (disch := decide +kernel) [sanitized, F32.finiteClamp_finiteClamp, clampByte_clampByte]

end LongExposureParams

structure TemporalResetPolicy where
  (loopBoundary downbeat : TemporalEventResetMode)
  deriving DecidableEq

structure RefreshGardenParams (A B : Type) where
  amount : F32
  gate : RefreshGardenGate
  (threshold softness decay : F32)
  maxHoldTicks : UInt32
  matteRoute : A
  motionRoute : B

namespace RefreshGardenParams

/-- The default, with the routes that select nobody. -/
def default (noMatte : A) (noMotion : B) : RefreshGardenParams A B :=
  ⟨0, .temporalDelta, 0.1, 0.03, 1, 0, noMatte, noMotion⟩

def sanitized (p : RefreshGardenParams A B) : RefreshGardenParams A B where
  amount := finiteClamp p.amount 0 0 1
  gate := p.gate
  threshold := finiteClamp p.threshold 0.1 0 1
  softness := finiteClamp p.softness 0.03 0 0.5
  decay := finiteClamp p.decay 1 0 1
  maxHoldTicks := p.maxHoldTicks
  matteRoute := p.matteRoute
  motionRoute := p.motionRoute

def mapRoutes (f : A → A') (g : B → B') (p : RefreshGardenParams A B) : RefreshGardenParams A' B' :=
  { p with
    matteRoute := f p.matteRoute
    motionRoute := g p.motionRoute }

/-- The derived `==`. -/
def same [DecidableEq A] [DecidableEq B] (p q : RefreshGardenParams A B) : Bool :=
  p.amount.eq q.amount && decide (p.gate = q.gate) &&
    p.threshold.eq q.threshold && p.softness.eq q.softness &&
    p.decay.eq q.decay && decide (p.maxHoldTicks = q.maxHoldTicks) &&
    decide (p.matteRoute = q.matteRoute) &&
    decide (p.motionRoute = q.motionRoute)

@[simp]
theorem sanitized_sanitized (p : RefreshGardenParams A B) :
    p.sanitized.sanitized = p.sanitized := by
  simp (disch := decide +kernel) [sanitized, F32.finiteClamp_finiteClamp]

end RefreshGardenParams

structure CollisionScoreParams (C : Type) where
  enabled : Bool
  seed : UInt32
  stateCount : ℕ
  trigger : CollisionScoreTrigger
  loopDriver : C
  deriving DecidableEq

namespace CollisionScoreParams

def default (noDriver : C) : CollisionScoreParams C := ⟨false, 0, 4, .boundary, noDriver⟩

def sanitized (p : CollisionScoreParams C) : CollisionScoreParams C :=
  { p with stateCount := clampByte p.stateCount 2 16 }

def mapRoute (f : C → C') (p : CollisionScoreParams C) : CollisionScoreParams C' :=
  { p with loopDriver := f p.loopDriver }

@[simp]
theorem sanitized_sanitized (p : CollisionScoreParams C) : p.sanitized.sanitized = p.sanitized := by
  simp (disch := decide) [sanitized, clampByte_clampByte]

end CollisionScoreParams

/-- The originals: `TemporalOriginalsParams` with live routes,
`TemporalOriginalsConfig` with saved ones. -/
structure TemporalOriginals (A B C : Type) where
  loom : TemporalLoomParams
  atlas : CollisionAtlasParams
  garden : RefreshGardenParams A B
  longExposure : LongExposureParams
  score : CollisionScoreParams C
  reset : TemporalResetPolicy

namespace TemporalOriginals

def default (noMatte : A) (noMotion : B) (noDriver : C) : TemporalOriginals A B C where
  loom := .default
  atlas := .default
  garden := .default noMatte noMotion
  longExposure := .default
  score := .default noDriver
  reset := ⟨.none, .none⟩

def sanitized (p : TemporalOriginals A B C) : TemporalOriginals A B C where
  loom := p.loom.sanitized
  atlas := p.atlas.sanitized
  garden := p.garden.sanitized
  longExposure := p.longExposure.sanitized
  score := p.score.sanitized
  reset := p.reset

/-- The same originals with their routes renamed. -/
def mapRoutes (f : A → A') (g : B → B') (h : C → C')
    (p : TemporalOriginals A B C) : TemporalOriginals A' B' C' :=
  { p with
    garden := p.garden.mapRoutes f g
    score := p.score.mapRoute h }

/-- The derived `==`. -/
def same [DecidableEq A] [DecidableEq B] [DecidableEq C] (p q : TemporalOriginals A B C) : Bool :=
  p.loom.same q.loom && p.atlas.same q.atlas && p.garden.same q.garden &&
    p.longExposure.same q.longExposure && decide (p.score = q.score) &&
    decide (p.reset = q.reset)

@[simp]
theorem sanitized_sanitized (p : TemporalOriginals A B C) :
    p.sanitized.sanitized = p.sanitized := by
  simp [sanitized]

theorem sanitized_mapRoutes (f : A → A') (g : B → B') (h : C → C') (p : TemporalOriginals A B C) :
    (p.mapRoutes f g h).sanitized = p.sanitized.mapRoutes f g h :=
  rfl

theorem mapRoutes_mapRoutes (f : A → A') (g : B → B') (h : C → C') (f' : A' → A'') (g' : B' → B'')
    (h' : C' → C'') (p : TemporalOriginals A B C) :
    (p.mapRoutes f g h).mapRoutes f' g' h' =
      p.mapRoutes (fun route => f' (f route)) (fun route => g' (g route))
        fun route => h' (h route) :=
  rfl

end TemporalOriginals

deriving instance DecidableEq for RefreshGardenMatteRoute

inductive RefreshGardenMotionRoute
  | none
  | selectedLayer (layerId : StableLayerId) (savedPosition : SavedLayerPosition)
  | missingSelectedLayer (savedPosition : SavedLayerPosition)
  deriving DecidableEq

inductive CollisionScoreLoopDriver
  | none
  | selectedLayer (layerId : StableLayerId) (savedPosition : SavedLayerPosition)
  | missingSelectedLayer (savedPosition : SavedLayerPosition)
  deriving DecidableEq

def gardenMatteRoute : RouteKind StableLayerId SavedLayerPosition
    LayerImageStage RefreshGardenMatteRoute RefreshGardenMatteRouteConfig where
  live :=
    { toFun := fun
        | .none => .none
        | .selectedLayer layerId position stage => .selected layerId position stage
        | .missingSelectedLayer position stage => .missing position stage
      invFun := fun
        | .none => .none
        | .selected layerId position stage => .selectedLayer layerId position stage
        | .missing position stage => .missingSelectedLayer position stage
      left_inv := by rintro (_ | _ | _) <;> rfl
      right_inv := by rintro (_ | _ | _) <;> rfl }
  saved :=
    { toFun := fun
        | .none => .none
        | .selectedLayer position stage => .selected position stage
        | .missingSelectedLayer position stage => .missing position stage
      invFun := fun
        | .none => .none
        | .selected position stage => .selectedLayer position stage
        | .missing position stage => .missingSelectedLayer position stage
      left_inv := by rintro (_ | _ | _) <;> rfl
      right_inv := by rintro (_ | _ | _) <;> rfl }

def gardenMotionRoute : RouteKind StableLayerId SavedLayerPosition Unit
    RefreshGardenMotionRoute RefreshGardenMotionRouteConfig where
  live :=
    { toFun := fun
        | .none => .none
        | .selectedLayer layerId position => .selected layerId position ()
        | .missingSelectedLayer position => .missing position ()
      invFun := fun
        | .none => .none
        | .selected layerId position _ => .selectedLayer layerId position
        | .missing position _ => .missingSelectedLayer position
      left_inv := by rintro (_ | _ | _) <;> rfl
      right_inv := by rintro (_ | _ | _) <;> rfl }
  saved :=
    { toFun := fun
        | .none => .none
        | .selectedLayer position => .selected position ()
        | .missingSelectedLayer position => .missing position ()
      invFun := fun
        | .none => .none
        | .selected position _ => .selectedLayer position
        | .missing position _ => .missingSelectedLayer position
      left_inv := by rintro (_ | _ | _) <;> rfl
      right_inv := by rintro (_ | _ | _) <;> rfl }

def loopDriverRoute : RouteKind StableLayerId SavedLayerPosition Unit
    CollisionScoreLoopDriver CollisionScoreLoopDriverConfig where
  live :=
    { toFun := fun
        | .none => .none
        | .selectedLayer layerId position => .selected layerId position ()
        | .missingSelectedLayer position => .missing position ()
      invFun := fun
        | .none => .none
        | .selected layerId position _ => .selectedLayer layerId position
        | .missing position _ => .missingSelectedLayer position
      left_inv := by rintro (_ | _ | _) <;> rfl
      right_inv := by rintro (_ | _ | _) <;> rfl }
  saved :=
    { toFun := fun
        | .none => .none
        | .selectedLayer position => .selected position ()
        | .missingSelectedLayer position => .missing position ()
      invFun := fun
        | .none => .none
        | .selected position _ => .selectedLayer position
        | .missing position _ => .missingSelectedLayer position
      left_inv := by rintro (_ | _ | _) <;> rfl
      right_inv := by rintro (_ | _ | _) <;> rfl }

abbrev TemporalOriginalsParams :=
  TemporalOriginals RefreshGardenMatteRoute RefreshGardenMotionRoute CollisionScoreLoopDriver

abbrev TemporalOriginalsConfig :=
  TemporalOriginals RefreshGardenMatteRouteConfig
    RefreshGardenMotionRouteConfig CollisionScoreLoopDriverConfig

namespace TemporalOriginalsConfig

def fromParams (value : TemporalOriginalsParams) : TemporalOriginalsConfig :=
  value.mapRoutes gardenMatteRoute.captureCached gardenMotionRoute.captureCached
    loopDriverRoute.captureCached

def toParams (config : TemporalOriginalsConfig) : TemporalOriginalsParams :=
  (config.mapRoutes gardenMatteRoute.unresolved gardenMotionRoute.unresolved
    loopDriverRoute.unresolved).sanitized

/-- `TemporalOriginalsParams::default`. -/
def defaultParams : TemporalOriginalsParams := TemporalOriginals.default .none .none .none

def default : TemporalOriginalsConfig := TemporalOriginals.default .none .none .none

def isDefault (config : TemporalOriginalsConfig) : Bool := (toParams config).same defaultParams

theorem toParams_default : toParams default = defaultParams := by
  simp (disch := decide +kernel) [toParams, default, defaultParams, TemporalOriginals.default,
    TemporalOriginals.mapRoutes, TemporalOriginals.sanitized, RefreshGardenParams.default,
    RefreshGardenParams.mapRoutes, RefreshGardenParams.sanitized, CollisionScoreParams.default,
    CollisionScoreParams.mapRoute, CollisionScoreParams.sanitized, TemporalLoomParams.default,
    TemporalLoomParams.sanitized, CollisionAtlasParams.default, CollisionAtlasParams.sanitized,
    LongExposureParams.default, LongExposureParams.sanitized, clampByte, F32.finiteClamp_of_le]
  exact ⟨⟨rfl, rfl⟩, rfl⟩

theorem sanitized_defaultParams : defaultParams.sanitized = defaultParams := by
  rw [← toParams_default, toParams, TemporalOriginals.sanitized_sanitized]

theorem isDefault_default : isDefault default = true := by
  decide +kernel

end TemporalOriginalsConfig

/-- A `TemporalParams`: the part that carries routes. -/
structure TemporalParams where
  originals : TemporalOriginalsParams

/-- A `TemporalConfig`: the part that carries routes. -/
structure TemporalConfig where
  originals : Option TemporalOriginalsConfig

namespace TemporalConfig

def fromParams (p : TemporalParams) : TemporalConfig :=
  let originals := TemporalOriginalsConfig.fromParams p.originals
  ⟨if TemporalOriginalsConfig.isDefault originals then none else some originals⟩

def fromParamsForCapture (p : TemporalParams)
    (positionOf : StableLayerId → Option SavedLayerPosition) :
    TemporalConfig :=
  let config := fromParams p
  let matteRoute := gardenMatteRoute.capture positionOf p.originals.garden.matteRoute
  let motionRoute := gardenMotionRoute.capture positionOf p.originals.garden.motionRoute
  let config : TemporalConfig :=
    if matteRoute ≠ .none ∨ motionRoute ≠ .none then
      let originals := config.originals.getD TemporalOriginalsConfig.default
      ⟨some
        { originals with
          garden :=
            { originals.garden with
              matteRoute := matteRoute
              motionRoute := motionRoute } }⟩
    else config
  let driver := loopDriverRoute.capture positionOf p.originals.score.loopDriver
  if driver ≠ .none then
    let originals := config.originals.getD TemporalOriginalsConfig.default
    ⟨some { originals with score := { originals.score with loopDriver := driver } }⟩
  else config

def toParams (config : TemporalConfig) : TemporalParams :=
  ⟨TemporalOriginalsConfig.toParams (config.originals.getD TemporalOriginalsConfig.default)⟩

end TemporalConfig

/-- A layer matte: `LayerMatte` with a live input, `LayerMatteConfig` with a
saved one. -/
structure LayerMatte (I : Type) extends Composition.LayerMatte I where
  channel : MatteChannel
  invert : Bool
  (threshold softness : F32)

abbrev LayerMatteConfig := LayerMatte SavedImageInput

namespace LayerMatte

variable {I : Type}

def default (oneBelow : I) : LayerMatte I := ⟨⟨false, oneBelow, 1⟩, .alpha, false, 0.5, 0.1⟩

def sanitized (matte : LayerMatte I) : LayerMatte I where
  toLayerMatte := matte.toLayerMatte.sanitized
  channel := matte.channel
  invert := matte.invert
  threshold := finiteClamp matte.threshold 0.5 0 1
  softness := finiteClamp matte.softness 0.1 0 1

def toRuntime (matte : LayerMatteConfig) (layerAt : SavedLayerPosition → Option StableLayerId) :
    LayerMatte ImageInput :=
  let value := matte.sanitized
  if !value.enabled then default .oneBelow
  else
    { toLayerMatte := matte.toLayerMatte.toRuntime layerAt
      channel := value.channel
      invert := value.invert
      threshold := value.threshold
      softness := value.softness }

def fromRuntime (matte : LayerMatte ImageInput)
    (positionOf : StableLayerId → Option SavedLayerPosition) :
    Except ImageRouteDiagnostic LayerMatteConfig := do
  let value := matte.sanitized
  let saved ← matte.toLayerMatte.fromRuntime positionOf
  return {
    toLayerMatte := saved
    channel := value.channel
    invert := value.invert
    threshold := value.threshold
    softness := value.softness }

theorem sanitized_toRuntime (matte : LayerMatteConfig)
    (layerAt : SavedLayerPosition → Option StableLayerId) :
    (matte.toRuntime layerAt).sanitized = matte.toRuntime layerAt := by
  unfold toRuntime Composition.LayerMatte.toRuntime
  by_cases henab : matte.enabled = true
  · simp (disch := decide +kernel) [sanitized, henab,
      Composition.LayerMatte.sanitized, F32.finiteClamp_finiteClamp]
  · simp (disch := decide +kernel) [sanitized, henab, default,
      Composition.LayerMatte.sanitized, F32.finiteClamp_of_le]

/-- `from_runtime`, with the default matte where it fails. -/
def captured (matte : LayerMatte ImageInput)
    (positionOf : StableLayerId → Option SavedLayerPosition) :
    LayerMatteConfig :=
  match matte.fromRuntime positionOf with
  | .ok saved => saved
  | .error _ => default .oneBelow

end LayerMatte

end CollideOScope.Patch
