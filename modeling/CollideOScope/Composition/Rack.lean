import CollideOScope.Composition.NodeKinds
import CollideOScope.Composition.Parameters
import CollideOScope.Composition.Tree

/-!
# Values of nodes with routes

A matte, a displacement, a residual and a symmetry field read the images of
other layers and groups.  Their values are generic in the names their routes
carry: `T` names an image and `D` a motion field, by saved position in a saved
tree and by identity in a live one.  Sanitizing never touches a route.
-/

namespace CollideOScope.Composition

open F32 (finiteClamp)

variable {T T' T'' D D' D'' : Type}

inductive MatteChannel
  | alpha | luma | red | green | blue
  deriving DecidableEq

structure ImageMatte (T : Type) where
  tap : T
  channel : MatteChannel
  invert : Bool
  (amount threshold softness : F32)

namespace ImageMatte

def sanitized (m : ImageMatte T) : ImageMatte T where
  tap := m.tap
  channel := m.channel
  invert := m.invert
  amount := finiteClamp m.amount 1 0 1
  threshold := finiteClamp m.threshold 0.5 0 1
  softness := finiteClamp m.softness 0.1 0 0.5

def mapRoutes (f : T → T') (m : ImageMatte T) : ImageMatte T' where
  tap := f m.tap
  channel := m.channel
  invert := m.invert
  amount := m.amount
  threshold := m.threshold
  softness := m.softness

@[simp]
theorem sanitized_sanitized (m : ImageMatte T) : m.sanitized.sanitized = m.sanitized := by
  simp (disch := decide +kernel) [sanitized, F32.finiteClamp_finiteClamp]

@[simp]
theorem sanitized_mapRoutes (f : T → T') (m : ImageMatte T) :
    (m.mapRoutes f).sanitized = m.sanitized.mapRoutes f :=
  rfl

end ImageMatte

inductive DisplaceBoundary
  | transparent | mirror | wrap | hold

structure DisplaceParams (T : Type) where
  tap : T
  (amountX amountY : F32)
  boundary : DisplaceBoundary

namespace DisplaceParams

def sanitized (p : DisplaceParams T) : DisplaceParams T where
  tap := p.tap
  amountX := finiteClamp p.amountX 0 (-1) 1
  amountY := finiteClamp p.amountY 0 (-1) 1
  boundary := p.boundary

def mapRoutes (f : T → T') (p : DisplaceParams T) : DisplaceParams T' where
  tap := f p.tap
  amountX := p.amountX
  amountY := p.amountY
  boundary := p.boundary

@[simp]
theorem sanitized_sanitized (p : DisplaceParams T) : p.sanitized.sanitized = p.sanitized := by
  simp (disch := decide +kernel) [sanitized, F32.finiteClamp_finiteClamp]

@[simp]
theorem sanitized_mapRoutes (f : T → T') (p : DisplaceParams T) :
    (p.mapRoutes f).sanitized = p.sanitized.mapRoutes f :=
  rfl

end DisplaceParams

inductive ResidualBlock
  | four | eight | sixteen | thirtyTwo | sixtyFour

inductive ResidualQuantization
  | off | coarse | medium | fine

/-- The one version of the decomposition; sanitizing always restores it. -/
def residualAlgorithmVersion : UInt16 := 1

structure ResidualParams (T : Type) where
  algorithmVersion : UInt16
  (structureTap detail : T)
  block : ResidualBlock
  quantization : ResidualQuantization
  (mix detailGain : F32)
  seed : UInt32

namespace ResidualParams

def sanitized (p : ResidualParams T) : ResidualParams T where
  algorithmVersion := residualAlgorithmVersion
  structureTap := p.structureTap
  detail := p.detail
  block := p.block
  quantization := p.quantization
  mix := finiteClamp p.mix 0 0 1
  detailGain := finiteClamp p.detailGain 1 0 4
  seed := p.seed

def mapRoutes (f : T → T') (p : ResidualParams T) : ResidualParams T' where
  algorithmVersion := p.algorithmVersion
  structureTap := f p.structureTap
  detail := f p.detail
  block := p.block
  quantization := p.quantization
  mix := p.mix
  detailGain := p.detailGain
  seed := p.seed

@[simp]
theorem sanitized_sanitized (p : ResidualParams T) : p.sanitized.sanitized = p.sanitized := by
  simp (disch := decide +kernel) [sanitized, F32.finiteClamp_finiteClamp]

@[simp]
theorem sanitized_mapRoutes (f : T → T') (p : ResidualParams T) :
    (p.mapRoutes f).sanitized = p.sanitized.mapRoutes f :=
  rfl

end ResidualParams

inductive SymmetryMode
  | cyclic | dihedral | planarP1 | planarPm | planarP2 | planarPmm | logSpiral
  | orbit

inductive SymmetryBoundary
  | transparent | mirror | wrap | hold | cellularReentry

structure SymmetrySourceMask where
  (carrier donor0 donor1 cleanHistory : Bool)
  deriving DecidableEq

/-- A mask that admits nothing admits the carrier. -/
def SymmetrySourceMask.sanitized (mask : SymmetrySourceMask) : SymmetrySourceMask :=
  if mask.carrier || mask.donor0 || mask.donor1 || mask.cleanHistory then mask
  else ⟨true, false, false, false⟩

@[simp]
theorem SymmetrySourceMask.sanitized_sanitized (mask : SymmetrySourceMask) :
    mask.sanitized.sanitized = mask.sanitized := by
  rcases mask with ⟨_ | _, _ | _, _ | _, _ | _⟩ <;> rfl

structure SymmetryMotionMask where
  (slot0 slot1 : Bool)
  deriving DecidableEq

/-- The two image slots and the two motion slots are fixed. -/
structure SymmetryParams (T D : Type) where
  mode : SymmetryMode
  baseFolds : F32
  foldOffset : F32
  radialPhaseDeg : F32
  orbitPhase : F32
  planarAxisDeg : F32
  (planarPhase cellSkew spiralScale orbitRadius orbitSpinDeg : F32)
  center : Vec2 F32
  boundary : SymmetryBoundary
  (motionGain hueSpan : F32)
  seed : UInt32
  sourceMask : SymmetrySourceMask
  motionMask : SymmetryMotionMask
  donors : Vec2 T
  motion : Vec2 D

namespace SymmetryParams

def sanitized (p : SymmetryParams T D) : SymmetryParams T D where
  mode := p.mode
  baseFolds := finiteClamp p.baseFolds 1 1 32
  foldOffset := finiteClamp p.foldOffset 0 (-32) 32
  radialPhaseDeg := wrapDegrees p.radialPhaseDeg
  orbitPhase := finiteClamp p.orbitPhase 0 (-1) 1
  planarAxisDeg := wrapDegrees p.planarAxisDeg
  planarPhase := finiteClamp p.planarPhase 0 (-4) 4
  cellSkew := finiteClamp p.cellSkew 0 (-1) 1
  spiralScale := finiteClamp p.spiralScale 0 (-1) 1
  orbitRadius := finiteClamp p.orbitRadius 0 0 1
  orbitSpinDeg := wrapDegrees p.orbitSpinDeg
  center := p.center.map fun v => finiteClamp v 0.5 (-1) 2
  boundary := p.boundary
  motionGain := finiteClamp p.motionGain 0 (-1) 1
  hueSpan := finiteClamp p.hueSpan 0 0 1
  seed := p.seed
  sourceMask := p.sourceMask.sanitized
  motionMask := p.motionMask
  donors := p.donors
  motion := p.motion

def mapRoutes (f : T → T') (g : D → D') (p : SymmetryParams T D) : SymmetryParams T' D' where
  mode := p.mode
  baseFolds := p.baseFolds
  foldOffset := p.foldOffset
  radialPhaseDeg := p.radialPhaseDeg
  orbitPhase := p.orbitPhase
  planarAxisDeg := p.planarAxisDeg
  planarPhase := p.planarPhase
  cellSkew := p.cellSkew
  spiralScale := p.spiralScale
  orbitRadius := p.orbitRadius
  orbitSpinDeg := p.orbitSpinDeg
  center := p.center
  boundary := p.boundary
  motionGain := p.motionGain
  hueSpan := p.hueSpan
  seed := p.seed
  sourceMask := p.sourceMask
  motionMask := p.motionMask
  donors := ⟨f p.donors.x, f p.donors.y⟩
  motion := ⟨g p.motion.x, g p.motion.y⟩

@[simp]
theorem sanitized_sanitized (p : SymmetryParams T D) : p.sanitized.sanitized = p.sanitized := by
  simp (disch := decide +kernel) [sanitized, Vec2.map,
    F32.finiteClamp_finiteClamp, wrapDegrees_wrapDegrees]

@[simp]
theorem sanitized_mapRoutes (f : T → T') (g : D → D') (p : SymmetryParams T D) :
    (p.mapRoutes f g).sanitized = p.sanitized.mapRoutes f g :=
  rfl

end SymmetryParams

inductive MaskParams (T : Type)
  | rectangle (mask : RectangleMask)
  | ellipse (mask : EllipseMask)
  | image (matte : ImageMatte T)

namespace MaskParams

def sanitized : MaskParams T → MaskParams T
  | rectangle mask => rectangle mask.sanitized
  | ellipse mask => ellipse mask.sanitized
  | image matte => image matte.sanitized

def mapRoutes (f : T → T') : MaskParams T → MaskParams T'
  | rectangle mask => rectangle mask
  | ellipse mask => ellipse mask
  | image matte => image (matte.mapRoutes f)

def imageTap : MaskParams T → Option T
  | rectangle _ => none
  | ellipse _ => none
  | image matte => some matte.tap

@[simp]
theorem sanitized_sanitized (mask : MaskParams T) : mask.sanitized.sanitized = mask.sanitized := by
  cases mask <;> simp [sanitized]

@[simp]
theorem sanitized_mapRoutes (f : T → T') (mask : MaskParams T) :
    (mask.mapRoutes f).sanitized = mask.sanitized.mapRoutes f := by
  cases mask <;> rfl

end MaskParams

/-!
## Nodes and racks

A rack is a short list of nodes and the cursor of its next node.
-/

open Checks
variable {T T' D D' : Type}

inductive NodeKind (T D : Type)
  | legacyCanonical | legacyTemporal
  | transform (value : SpatialTransform)
  | digitalColor (value : DigitalColorParams)
  | key (value : KeyParams)
  | cellular (value : CellularParams)
  | shift (value : ShiftParams)
  | grain (value : GrainParams)
  | mask (value : MaskParams T)
  | displace (value : DisplaceParams T)
  | symmetry (value : SymmetryParams T D)
  | residual (value : ResidualParams T)
  | study (value : StudyRackParams)
  | scanProcessor (value : ScanProcessorParams)
  | blockDct (value : BlockDctParams)
  | pixelSort (value : PixelSortParams)
  | avalanche (value : AvalancheParams)

namespace NodeKind

def tag : NodeKind T D → NodeKindTag
  | legacyCanonical => .legacyCanonical
  | legacyTemporal => .legacyTemporal
  | transform _ => .transform
  | digitalColor _ => .digitalColor
  | key _ => .key
  | cellular _ => .cellular
  | shift _ => .shift
  | grain _ => .grain
  | mask _ => .mask
  | displace _ => .displace
  | symmetry _ => .symmetry
  | residual _ => .residual
  | study _ => .study
  | scanProcessor _ => .scanProcessor
  | blockDct _ => .blockDct
  | pixelSort _ => .pixelSort
  | avalanche _ => .avalanche

def sanitized : NodeKind T D → NodeKind T D
  | transform value => transform value.sanitized
  | digitalColor value => digitalColor value.sanitized
  | key value => key value.sanitized
  | cellular value => cellular value.sanitized
  | shift value => shift value.sanitized
  | grain value => grain value.sanitized
  | mask value => mask value.sanitized
  | displace value => displace value.sanitized
  | symmetry value => symmetry value.sanitized
  | residual value => residual value.sanitized
  | scanProcessor value => scanProcessor value.sanitized
  | blockDct value => blockDct value.sanitized
  | pixelSort value => pixelSort value.sanitized
  | avalanche value => avalanche value.sanitized
  | marker => marker

def taps : NodeKind T D → List T
  | mask value => value.imageTap.toList
  | displace value => [value.tap]
  | residual value => [value.structureTap, value.detail]
  | symmetry value => [value.donors.x, value.donors.y]
  | _ => []

def mapRoutes (f : T → T') (g : D → D') : NodeKind T D → NodeKind T' D'
  | legacyCanonical => legacyCanonical
  | legacyTemporal => legacyTemporal
  | transform value => transform value
  | digitalColor value => digitalColor value
  | key value => key value
  | cellular value => cellular value
  | shift value => shift value
  | grain value => grain value
  | mask value => mask (value.mapRoutes f)
  | displace value => displace (value.mapRoutes f)
  | symmetry value => symmetry (value.mapRoutes f g)
  | residual value => residual (value.mapRoutes f)
  | study value => study value
  | scanProcessor value => scanProcessor value
  | blockDct value => blockDct value
  | pixelSort value => pixelSort value
  | avalanche value => avalanche value

@[simp]
theorem tag_sanitized (kind : NodeKind T D) : kind.sanitized.tag = kind.tag := by
  cases kind <;> rfl

@[simp]
theorem tag_mapRoutes (f : T → T') (g : D → D') (kind : NodeKind T D) :
    (kind.mapRoutes f g).tag = kind.tag := by
  cases kind <;> rfl

@[simp]
theorem sanitized_sanitized (kind : NodeKind T D) : kind.sanitized.sanitized = kind.sanitized := by
  cases kind <;> simp [sanitized]

@[simp]
theorem sanitized_mapRoutes (f : T → T') (g : D → D') (kind : NodeKind T D) :
    (kind.mapRoutes f g).sanitized = kind.sanitized.mapRoutes f g := by
  cases kind <;> simp [sanitized, mapRoutes]

end NodeKind

inductive NodeBlend
  | normal | screen | multiply | difference | add | subtract | darken | lighten
  | overlay | softLight | hardLight | exclusion | dodge | burn | alphaCut
  deriving DecidableEq

structure VisualNode (T D : Type) where
  stableId : NodeId
  enabled : Bool
  wet : F32
  blend : NodeBlend
  kind : NodeKind T D

namespace VisualNode

def authored (stableId : NodeId) (kind : NodeKind T D) : VisualNode T D where
  stableId
  enabled := true
  wet := 1
  blend := .normal
  kind := kind.sanitized

def sanitized (node : VisualNode T D) : VisualNode T D where
  stableId := node.stableId
  enabled := node.enabled
  wet := finiteClamp node.wet 1 0 1
  blend := node.blend
  kind := node.kind.sanitized

def mapRoutes (f : T → T') (g : D → D') (node : VisualNode T D) : VisualNode T' D' where
  stableId := node.stableId
  enabled := node.enabled
  wet := node.wet
  blend := node.blend
  kind := node.kind.mapRoutes f g

@[simp]
theorem sanitized_sanitized (node : VisualNode T D) :
    node.sanitized.sanitized = node.sanitized := by
  simp (disch := decide +kernel) [sanitized, F32.finiteClamp_finiteClamp]

@[simp]
theorem sanitized_mapRoutes (f : T → T') (g : D → D') (node : VisualNode T D) :
    (node.mapRoutes f g).sanitized = node.sanitized.mapRoutes f g := by
  simp [sanitized, mapRoutes]

theorem mapRoutes_mapRoutes {T'' D'' : Type} (f : T → T') (g : D → D')
    (f' : T' → T'') (g' : D' → D'') (node : VisualNode T D) :
    (node.mapRoutes f g).mapRoutes f' g' =
      node.mapRoutes (fun tap => f' (f tap)) fun donor => g' (g donor) := by
  obtain ⟨stableId, enabled, wet, blend, kind⟩ := node
  cases kind with
  | mask mask => cases mask <;> rfl
  | _ => rfl

theorem mapRoutes_id (node : VisualNode T D) :
    node.mapRoutes (fun tap => tap) (fun donor => donor) = node := by
  obtain ⟨stableId, enabled, wet, blend, kind⟩ := node
  cases kind with
  | mask mask => cases mask <;> rfl
  | _ => rfl

def isExactLegacyMarker (node : VisualNode T D) (expected : NodeKindTag) : Bool :=
  node.enabled && node.wet.eq 1 && decide (node.blend = .normal) &&
    decide (node.kind.tag = expected)

end VisualNode

def maxNodesPerRack : ℕ := 8

def NodeId.legacyCanonical : NodeId := ⟨1, one_isIdentity⟩

theorem two_isIdentity : 0 < 2 ∧ 2 ≤ u64Max := by
  decide

theorem three_isIdentity : 0 < 3 ∧ 3 ≤ u64Max := by
  decide

def NodeId.legacyTemporal : NodeId := ⟨2, two_isIdentity⟩

inductive RackError
  | tooManyNodes (limit : ℕ)
  | duplicateNodeId (id : NodeId)
  | reservedNodeId (id : NodeId) (expected : NodeKindTag)
  | legacyMarkerId (tag : NodeKindTag) (expected : NodeId)
  | mutableLegacyMarker (id : NodeId)
  | legacyTemporalOnLayer
  | legacyMarkerOnGroup (tag : NodeKindTag)
  | invalidNextNodeId (next greatestObserved : ℕ)
  | nodeIdExhausted
  | unknownNode (id : NodeId)
  | invalidMoveIndex (index len : ℕ)
  | budget (error : RackBudgetError)

inductive LegacyRackScope
  | layer | master | group
  deriving DecidableEq

structure VisualRack (T D : Type) where
  nodes : List (VisualNode T D)
  nextNodeId : ℕ

abbrev RuntimeVisualRack := VisualRack ResolvedImageTap MotionDonor

abbrev SavedVisualRack := VisualRack SavedImageTap SavedMotionDonor

abbrev RuntimeVisualNode := VisualNode ResolvedImageTap MotionDonor

namespace VisualRack

def empty : VisualRack T D := ⟨[], 3⟩

/-- `VisualRack::resource_budget`. -/
def budget (rack : VisualRack T D) : Except RackError RackResourceBudget :=
  (resourceBudget (rack.nodes.map fun node => ⟨node.kind.tag, node.enabled⟩)).mapError .budget

def validateForScope (rack : VisualRack T D) (scope : LegacyRackScope) :
    Except RackError Unit := do
  let carries (tag : NodeKindTag) : Bool := rack.nodes.any fun node => node.kind.tag = tag
  if scope = .group then
    refuse (carries .legacyCanonical) (.legacyMarkerOnGroup .legacyCanonical)
    refuse (carries .legacyTemporal) (.legacyMarkerOnGroup .legacyTemporal)
  else refuse (scope = .layer ∧ carries .legacyTemporal) .legacyTemporalOnLayer
  let _ ← rack.budget

def reservedId : NodeKindTag → Option NodeId
  | .legacyCanonical => some NodeId.legacyCanonical
  | .legacyTemporal => some NodeId.legacyTemporal
  | _ => none

def validateLegacyMarker (node : VisualNode T D) : Except RackError Unit := do
  refuse (node.stableId = NodeId.legacyCanonical ∧ node.kind.tag ≠ .legacyCanonical)
    (.reservedNodeId node.stableId .legacyCanonical)
  refuse (node.stableId = NodeId.legacyTemporal ∧ node.kind.tag ≠ .legacyTemporal)
    (.reservedNodeId node.stableId .legacyTemporal)
  match reservedId node.kind.tag with
  | none => pure ()
  | some expected => do
      refuse (node.stableId ≠ expected) (.legacyMarkerId node.kind.tag expected)
      refuse (¬node.isExactLegacyMarker node.kind.tag) (.mutableLegacyMarker node.stableId)

/-- The loop over the nodes: distinct identities and proper markers. -/
def checkNodes : List NodeId → List (VisualNode T D) → Except RackError Unit
  | _, [] => pure ()
  | earlier, node :: rest => do
      refuse (node.stableId ∈ earlier) (.duplicateNodeId node.stableId)
      validateLegacyMarker node
      checkNodes (earlier ++ [node.stableId]) rest

/-- The greatest identity observed, at least that of the reserved ones. -/
def greatestNodeId (nodes : List (VisualNode T D)) : ℕ :=
  nodes.foldl (fun greatest node => max greatest node.stableId.val) NodeId.legacyTemporal.val

/-- A cursor lies past what was observed, or is spent at the last identity. -/
def CursorPast (next greatest : ℕ) : Prop :=
  (next ≠ 0 ∧ greatest < next) ∨ (next = 0 ∧ greatest = u64Max)

instance (next greatest : ℕ) : Decidable (CursorPast next greatest) :=
  inferInstanceAs (Decidable (_ ∨ _))

def tryFromParts (nodes : List (VisualNode T D)) (nextNodeId : Option ℕ) :
    Except RackError (VisualRack T D) := do
  refuse (maxNodesPerRack < nodes.length) (.tooManyNodes maxNodesPerRack)
  checkNodes [] nodes
  let greatest := greatestNodeId nodes
  let next := nextNodeId.getD (nextCursor greatest)
  refuse (¬CursorPast next greatest) (.invalidNextNodeId next greatest)
  let rack : VisualRack T D := ⟨nodes.map VisualNode.sanitized, next⟩
  let _ ← rack.budget
  return rack

end VisualRack

/-- What a group carries besides its members. -/
structure GroupBody (T D : Type) where
  name : String
  opacity : F32
  transform : SpatialTransform
  rack : VisualRack T D
  matte : Option (ImageMatte T)
  (solo bypass : Bool)
  bus : BusAssignment

/-- A composition: its tree, the cursor of its next group, and its mixer. -/
structure CompositionState (L T D : Type) where
  tree : Tree L (GroupBody T D)
  nextGroupId : ℕ
  busCrossfade : F32
  mixer : BusMixerState

abbrev RuntimeComposition := CompositionState StableLayerId ResolvedImageTap MotionDonor

abbrev CompositionTree := CompositionState SavedLayerPosition SavedImageTap SavedMotionDonor

end CollideOScope.Composition
