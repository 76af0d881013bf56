import CollideOScope.Morph.SavedRoutes
import CollideOScope.Support.NamedRoutes

/-!
# The motion block of a layer

A layer and the master each carry a motion block.  It names up to three donors:
the layer whose motion is transplanted, and the two inputs of the collider.
The block is generic in the names of its donors, so that the live block and the
saved one are two instances of it; the tables that rename the enumerations
between the two are one to one, and both blocks use one enumeration.
-/

namespace CollideOScope.Patch

open List Composition Morph
open F32 (finiteClamp)

variable {D D' D'' : Type}

inductive ProceduralFieldKind
  | curl | radial | spiral | contour | chroma | weave
  deriving DecidableEq

inductive MotionFieldSource
  | auto | codecVectors | lattice
  | procedural (kind : ProceduralFieldKind)
  deriving DecidableEq

inductive MotionLatticeQuality
  | draft | live | high
  deriving DecidableEq

inductive MotionCarrier
  | transparent | black | firstSourceFrame
  deriving DecidableEq

inductive CurvedShutterQuality
  | sharp | draft | live | high
  deriving DecidableEq

inductive FieldColliderMode
  | sum | difference | curl | projection | collisionBoundary
  deriving DecidableEq

inductive MotionBoundaryMode
  | transparent | mirror | wrap | hold
  deriving DecidableEq

def motionAlgorithmVersion : UInt16 := 1

def fieldColliderAlgorithmVersion : UInt16 := 1

structure ProceduralFieldParams where
  (scale rate : F32)

namespace ProceduralFieldParams

def default : ProceduralFieldParams := ⟨0.5, 0.25⟩

def sanitized (p : ProceduralFieldParams) : ProceduralFieldParams where
  scale := finiteClamp p.scale 0.5 0 1
  rate := finiteClamp p.rate 0.25 (-2) 2

/-- The derived `==`. -/
def same (p q : ProceduralFieldParams) : Bool := p.scale.eq q.scale && p.rate.eq q.rate

@[simp]
theorem sanitized_sanitized (p : ProceduralFieldParams) : p.sanitized.sanitized = p.sanitized := by
  simp (disch := decide +kernel) [sanitized, F32.finiteClamp_finiteClamp]

end ProceduralFieldParams

structure FlowShapingParams where
  (stretch edgeRepel vectorTrash trashBlockSize : F32)

namespace FlowShapingParams

def default : FlowShapingParams := ⟨0, 0, 0, 16⟩

def sanitized (p : FlowShapingParams) : FlowShapingParams where
  stretch := finiteClamp p.stretch 0 0 1
  edgeRepel := finiteClamp p.edgeRepel 0 0 1
  vectorTrash := finiteClamp p.vectorTrash 0 0 1
  trashBlockSize := finiteClamp p.trashBlockSize 16 2 256

/-- The derived `==`. -/
def same (p q : FlowShapingParams) : Bool :=
  p.stretch.eq q.stretch && p.edgeRepel.eq q.edgeRepel &&
    p.vectorTrash.eq q.vectorTrash && p.trashBlockSize.eq q.trashBlockSize

@[simp]
theorem sanitized_sanitized (p : FlowShapingParams) : p.sanitized.sanitized = p.sanitized := by
  simp (disch := decide +kernel) [sanitized, F32.finiteClamp_finiteClamp]

end FlowShapingParams

structure CurvedShutterParams where
  (angleDegrees phase curvature chromaticLag : F32)
  quality : CurvedShutterQuality

namespace CurvedShutterParams

def default : CurvedShutterParams := ⟨0, 0, 0, 0, .sharp⟩

def sanitized (p : CurvedShutterParams) : CurvedShutterParams where
  angleDegrees := finiteClamp p.angleDegrees 0 0 360
  phase := finiteClamp p.phase 0 (-1) 1
  curvature := finiteClamp p.curvature 0 (-2) 2
  chromaticLag := finiteClamp p.chromaticLag 0 0 1
  quality := p.quality

/-- The derived `==`. -/
def same (p q : CurvedShutterParams) : Bool :=
  p.angleDegrees.eq q.angleDegrees && p.phase.eq q.phase &&
    p.curvature.eq q.curvature && p.chromaticLag.eq q.chromaticLag &&
    decide (p.quality = q.quality)

@[simp]
theorem sanitized_sanitized (p : CurvedShutterParams) : p.sanitized.sanitized = p.sanitized := by
  simp (disch := decide +kernel) [sanitized, F32.finiteClamp_finiteClamp]

end CurvedShutterParams

structure FaradayParams (D : Type) where
  amount : F32
  donor : D
  carrier : MotionCarrier
  (confidenceThreshold confidenceSoftness refresh decay occlusion : F32)

namespace FaradayParams

/-- The default, with the route that selects nobody. -/
def default (none : D) : FaradayParams D := ⟨0, none, .transparent, 0.1, 0.05, 1, 1, 0⟩

def sanitized (p : FaradayParams D) : FaradayParams D where
  amount := finiteClamp p.amount 0 0 1
  donor := p.donor
  carrier := p.carrier
  confidenceThreshold := finiteClamp p.confidenceThreshold 0.1 0 1
  confidenceSoftness := finiteClamp p.confidenceSoftness 0.05 0 0.5
  refresh := finiteClamp p.refresh 1 0 1
  decay := finiteClamp p.decay 1 0 1
  occlusion := finiteClamp p.occlusion 0 0 1

def mapDonor (f : D → D') (p : FaradayParams D) : FaradayParams D' := { p with donor := f p.donor }

/-- The derived `==`. -/
def same [DecidableEq D] (p q : FaradayParams D) : Bool :=
  p.amount.eq q.amount && decide (p.donor = q.donor) && decide (p.carrier = q.carrier) &&
    p.confidenceThreshold.eq q.confidenceThreshold &&
    p.confidenceSoftness.eq q.confidenceSoftness && p.refresh.eq q.refresh &&
    p.decay.eq q.decay && p.occlusion.eq q.occlusion

@[simp]
theorem sanitized_sanitized (p : FaradayParams D) : p.sanitized.sanitized = p.sanitized := by
  simp (disch := decide +kernel) [sanitized, F32.finiteClamp_finiteClamp]

end FaradayParams

structure FieldColliderParams (D : Type) where
  algorithmVersion : UInt16
  enabled : Bool
  mode : FieldColliderMode
  boundary : MotionBoundaryMode
  (inputA inputB : D)
  deriving DecidableEq

namespace FieldColliderParams

def default (none : D) : FieldColliderParams D :=
  ⟨fieldColliderAlgorithmVersion, false, .sum, .transparent, none, none⟩

def sanitized (p : FieldColliderParams D) : FieldColliderParams D :=
  { p with algorithmVersion := fieldColliderAlgorithmVersion }

def mapDonors (f : D → D') (p : FieldColliderParams D) : FieldColliderParams D' :=
  { p with
    inputA := f p.inputA
    inputB := f p.inputB }

end FieldColliderParams

/-- A motion block: `MotionParams` with live donors, `MotionConfig` with saved
ones. -/
structure MotionBlock (D : Type) where
  algorithmVersion : UInt16
  fieldSource : MotionFieldSource
  latticeQuality : MotionLatticeQuality
  procedural : ProceduralFieldParams
  shaping : FlowShapingParams
  transplant : FaradayParams D
  shutter : CurvedShutterParams
  collider : FieldColliderParams D

abbrev MotionParams := MotionBlock MotionDonor

abbrev MotionConfig := MotionBlock MotionDonorConfig

namespace MotionBlock

def default (none : D) : MotionBlock D where
  algorithmVersion := motionAlgorithmVersion
  fieldSource := .auto
  latticeQuality := .live
  procedural := .default
  shaping := .default
  transplant := .default none
  shutter := .default
  collider := .default none

def sanitized (p : MotionBlock D) : MotionBlock D where
  algorithmVersion :=
    if p.algorithmVersion = motionAlgorithmVersion then p.algorithmVersion
    else motionAlgorithmVersion
  fieldSource := p.fieldSource
  latticeQuality := p.latticeQuality
  procedural := p.procedural.sanitized
  shaping := p.shaping.sanitized
  transplant := p.transplant.sanitized
  shutter := p.shutter.sanitized
  collider := p.collider.sanitized

def mapDonors (f : D → D') (p : MotionBlock D) : MotionBlock D' :=
  { p with
    transplant := p.transplant.mapDonor f
    collider := p.collider.mapDonors f }

def donors (p : MotionBlock D) : List D :=
  [p.transplant.donor, p.collider.inputA, p.collider.inputB]

/-- The derived `==`. -/
def same [DecidableEq D] (p q : MotionBlock D) : Bool :=
  decide (p.algorithmVersion = q.algorithmVersion) && decide (p.fieldSource = q.fieldSource) &&
    decide (p.latticeQuality = q.latticeQuality) &&
    p.procedural.same q.procedural && p.shaping.same q.shaping &&
    p.transplant.same q.transplant && p.shutter.same q.shutter &&
    decide (p.collider = q.collider)

@[simp]
theorem sanitized_sanitized (p : MotionBlock D) : p.sanitized.sanitized = p.sanitized := by
  simp [sanitized, FieldColliderParams.sanitized]

theorem sanitized_mapDonors (f : D → D') (p : MotionBlock D) :
    (p.mapDonors f).sanitized = p.sanitized.mapDonors f :=
  rfl

theorem mapDonors_mapDonors (f : D → D') (g : D' → D'') (p : MotionBlock D) :
    (p.mapDonors f).mapDonors g = p.mapDonors fun donor => g (f donor) :=
  rfl

theorem donors_mapDonors (f : D → D') (p : MotionBlock D) :
    (p.mapDonors f).donors = p.donors.map f :=
  rfl

theorem sanitized_default (none : D) :
    (MotionBlock.default none).sanitized = MotionBlock.default none := by
  simp (disch := decide +kernel) [MotionBlock.default, sanitized, ProceduralFieldParams.default,
    ProceduralFieldParams.sanitized, FlowShapingParams.default, FlowShapingParams.sanitized,
    FaradayParams.default, FaradayParams.sanitized, CurvedShutterParams.default,
    CurvedShutterParams.sanitized, FieldColliderParams.default, FieldColliderParams.sanitized,
    F32.finiteClamp_of_le]

variable {p : MotionBlock D} {f g : D → D'}

theorem mapDonors_congr (h : ∀ donor ∈ p.donors, f donor = g donor) :
    p.mapDonors f = p.mapDonors g := by
  simp only [donors, forall_mem_cons] at h
  simp only [mapDonors, FaradayParams.mapDonor, FieldColliderParams.mapDonors, h.1, h.2.1, h.2.2.1]

theorem mapDonors_injective (h : p.mapDonors f = p.mapDonors g) :
    ∀ donor ∈ p.donors, f donor = g donor := by
  simp only [mapDonors, FaradayParams.mapDonor, FieldColliderParams.mapDonors, MotionBlock.mk.injEq,
    FaradayParams.mk.injEq, FieldColliderParams.mk.injEq] at h
  simp only [donors, forall_mem_cons]
  tauto

end MotionBlock

def motionDonorRoute : RouteKind StableLayerId SavedLayerPosition Unit
    MotionDonor MotionDonorConfig where
  live :=
    { toFun := fun
        | .none => .none
        | .selected layerId position => .selected layerId position ()
        | .missing position => .missing position ()
      invFun := fun
        | .none => .none
        | .selected layerId position _ => .selected layerId position
        | .missing position _ => .missing position
      left_inv := by rintro (_ | _ | _) <;> rfl
      right_inv := by rintro (_ | _ | _) <;> rfl }
  saved :=
    { toFun := fun
        | .none => .none
        | .selected position => .selected position ()
        | .missing position => .missing position ()
      invFun := fun
        | .none => .none
        | .selected position _ => .selected position
        | .missing position _ => .missing position
      left_inv := by rintro (_ | _ | _) <;> rfl
      right_inv := by rintro (_ | _ | _) <;> rfl }

namespace MotionConfig

/-- `MotionConfig::from_params`: donors by the position they were saved at. -/
def fromParams (value : MotionParams) : MotionConfig :=
  value.mapDonors motionDonorRoute.captureCached

def fromParamsForCapture (value : MotionParams)
    (positionOf : StableLayerId → Option SavedLayerPosition) : MotionConfig :=
  let config := fromParams value
  { config with
    transplant :=
      { config.transplant with donor := motionDonorRoute.capture positionOf value.transplant.donor }
    collider :=
      { config.collider with
        inputA := motionDonorRoute.capture positionOf value.collider.inputA
        inputB := motionDonorRoute.capture positionOf value.collider.inputB } }

def toParams (config : MotionConfig) : MotionParams :=
  (config.mapDonors motionDonorRoute.unresolved).sanitized

def resolveRuntime (config : MotionConfig)
    (layerAt : SavedLayerPosition → Option StableLayerId) : MotionParams :=
  let params := (toParams config).sanitized
  { params with
    transplant :=
      { params.transplant with donor := motionDonorRoute.resolve layerAt config.transplant.donor }
    collider :=
      { params.collider with
        inputA := motionDonorRoute.resolve layerAt config.collider.inputA
        inputB := motionDonorRoute.resolve layerAt config.collider.inputB } }

def default : MotionConfig := fromParams (.default .none)

def isDefault (config : MotionConfig) : Bool := config.same default

theorem resolveRuntime_eq (config : MotionConfig)
    (layerAt : SavedLayerPosition → Option StableLayerId) :
    resolveRuntime config layerAt =
      (config.mapDonors (motionDonorRoute.resolve layerAt)).sanitized := by
  rw [resolveRuntime, toParams, MotionBlock.sanitized_sanitized]
  rfl

theorem resolveRuntime_default (layerAt : SavedLayerPosition → Option StableLayerId) :
    resolveRuntime default layerAt = MotionBlock.default .none := by
  rw [resolveRuntime_eq, default, fromParams, MotionBlock.mapDonors_mapDonors,
    MotionBlock.sanitized_mapDonors, MotionBlock.sanitized_default]
  rfl

theorem isDefault_default : isDefault default = true := by
  decide +kernel

theorem donors_of_isDefault {config : MotionConfig}
    (h : isDefault config = true) : ∀ donor ∈ config.donors, donor = .none := by
  simp only [isDefault, MotionBlock.same, FaradayParams.same,
    Bool.and_eq_true, decide_eq_true_eq] at h
  have htransplant : config.transplant.donor = .none := by tauto
  have hcollider : config.collider = (default).collider := by tauto
  simp [MotionBlock.donors, htransplant, hcollider, default, fromParams, MotionBlock.default,
    MotionBlock.mapDonors, FieldColliderParams.default, FieldColliderParams.mapDonors,
    motionDonorRoute, RouteKind.captureCached, LiveRoute.captureCached]

end MotionConfig

end CollideOScope.Patch
