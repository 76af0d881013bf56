import CollideOScope.Composition.Rack
import CollideOScope.Composition.Taps

/-!
# Visual graphs

The racks and mattes of a show can ask for images: those of the master, of each
layer and of each group.  A saved graph names its layers by position, a live one
by identity, and each is the other with its names replaced.
-/

namespace CollideOScope.Composition

open F32

variable {T T' D D' : Type}

namespace SymmetryMode

def isBypassCapable : SymmetryMode → Bool
  | cyclic => true
  | _ => false

end SymmetryMode

namespace SymmetrySourceMask

def isCarrierOnly (mask : SymmetrySourceMask) : Bool :=
  let clean := mask.sanitized
  clean.carrier && !clean.donor0 && !clean.donor1 && !clean.cleanHistory

end SymmetrySourceMask

namespace SymmetryMotionMask

def isEmpty (mask : SymmetryMotionMask) : Bool := !mask.slot0 && !mask.slot1

end SymmetryMotionMask

/-- `f32::round` of a finite value: to the nearest integer, halves away from
zero. -/
def roundAwayFromZero (value : F32) : ℤ :=
  let units := value.value
  let magnitude := (2 * units.natAbs + scale) / (2 * scale)
  if units < 0 then -magnitude else magnitude

/-- `then_some`: the route of a slot that is admitted. -/
def slotRoute (isAdmitted : Bool) (slot : ℕ) (tap : T) : List (ℕ × T) :=
  if isAdmitted then [(slot, tap)] else []

theorem map_slotRoute (f : T → T') (isAdmitted : Bool) (slot : ℕ) (tap : T) :
    (slotRoute isAdmitted slot tap).map (fun route => (route.1, f route.2)) =
      slotRoute isAdmitted slot (f tap) := by
  cases isAdmitted with
  | false | true => rfl

namespace SymmetryParams

def effectiveFolds (p : SymmetryParams T D) : ℕ :=
  let base := if p.baseFolds.isFinite then p.baseFolds else 1
  let offset := if p.foldOffset.isFinite then p.foldOffset else 0
  let modulated := base + offset
  let rounded := if modulated.isFinite then roundAwayFromZero modulated else 1
  (min (max rounded 1) 32).toNat

def tableIsNeutral (p : SymmetryParams T D) : Bool :=
  let clean := p.sanitized
  clean.sourceMask.isCarrierOnly && clean.motionMask.isEmpty && clean.hueSpan.eq 0

def isExactBypass (p : SymmetryParams T D) : Bool :=
  let clean := p.sanitized
  clean.mode.isBypassCapable && decide (clean.effectiveFolds = 1) &&
    clean.radialPhaseDeg.eq 0 && clean.orbitPhase.eq 0 && clean.tableIsNeutral

/-- `admitted_donor_taps`, with the slots that are admitted. -/
def admittedDonorTaps (p : SymmetryParams T D) : List (ℕ × T) :=
  let mask := p.sourceMask.sanitized
  slotRoute mask.donor0 0 p.donors.x ++ slotRoute mask.donor1 1 p.donors.y

end SymmetryParams

def DisplaceParams.isExactBypass (p : DisplaceParams T) : Bool :=
  p.sanitized.amountX.eq 0 && p.sanitized.amountY.eq 0

def ResidualParams.isExactBypass (p : ResidualParams T) : Bool := p.sanitized.mix.eq 0

/-- The routes that a kind claims, with their slots: the `match` that both walks
carry. -/
def NodeKind.admittedRoutes : NodeKind T D → List (ℕ × T)
  | .mask (.image matte) => if lt 0 matte.amount then [(0, matte.tap)] else []
  | .displace params => if params.isExactBypass then [] else [(0, params.tap)]
  | .residual params =>
    if params.isExactBypass then []
    else [(0, params.structureTap), (1, params.detail)]
  | .symmetry params => if params.isExactBypass then [] else params.admittedDonorTaps
  | _ => []

theorem NodeKind.admittedRoutes_mapRoutes (f : T → T') (g : D → D') (kind : NodeKind T D) :
    (kind.mapRoutes f g).admittedRoutes =
      kind.admittedRoutes.map fun route => (route.1, f route.2) := by
  cases kind with
  | mask mask =>
    cases mask with
    | image matte =>
      simp only [NodeKind.mapRoutes, MaskParams.mapRoutes, admittedRoutes, ImageMatte.mapRoutes]
      split <;> rfl
    | _ => rfl
  | displace params | residual params =>
    have hbypass : (params.mapRoutes f).isExactBypass = params.isExactBypass := rfl
    simp only [NodeKind.mapRoutes, admittedRoutes, hbypass]
    split <;> rfl
  | symmetry params =>
    have hbypass : (params.mapRoutes f g).isExactBypass = params.isExactBypass := rfl
    simp only [NodeKind.mapRoutes, admittedRoutes, hbypass]
    split
    · rfl
    · simp only [SymmetryParams.admittedDonorTaps, List.map_append, map_slotRoute]
      rfl
  | _ => rfl

inductive SavedImageInput
  | selectedLayer (layerPosition : SavedLayerPosition) (stage : LayerImageStage)
  | missingSelectedLayer (savedPosition : SavedLayerPosition)
      (stage : LayerImageStage)
  | oneBelow | allBelow | cleanProgram | programHistory
  | groupOutput (groupId : GroupId)
  | missingGroupOutput (groupId : GroupId)

/-- The matte of a layer: what the two walks read of it. -/
structure LayerMatte (I : Type) where
  enabled : Bool
  input : I
  amount : F32

namespace LayerMatte

variable {I : Type}

def sanitized (matte : LayerMatte I) : LayerMatte I :=
  { matte with amount := finiteClamp matte.amount 1 0 1 }

def isActive (matte : LayerMatte I) : Bool := matte.enabled && lt 0 matte.amount

def toRuntime (matte : LayerMatte SavedImageInput)
    (layerAtPosition : SavedLayerPosition → Option StableLayerId) :
    LayerMatte ImageInput :=
  let value := matte.sanitized
  if !value.enabled then ⟨false, .oneBelow, 1⟩
  else
    let input :=
      match value.input with
      | .selectedLayer position stage =>
        match layerAtPosition position with
        | none => .missingSelectedLayer position stage
        | some layerId => .selectedLayer layerId stage
      | .missingSelectedLayer position stage => .missingSelectedLayer position stage
      | .oneBelow => .oneBelow
      | .allBelow => .allBelow
      | .cleanProgram => .cleanProgram
      | .programHistory => .programHistory
      | .groupOutput groupId => .groupOutput groupId
      | .missingGroupOutput groupId => .missingGroupOutput groupId
    ⟨true, input, value.amount⟩

/-- The input of `LayerMatteConfig::from_runtime`; a lost donor is an error. -/
def savedInput (positionOfLayer : StableLayerId → Option SavedLayerPosition) :
    ImageInput → Except ImageRouteDiagnostic SavedImageInput
  | .selectedLayer layerId stage =>
    match positionOfLayer layerId with
    | none => .error (.missing (.liveLayer layerId))
    | some position => .ok (.selectedLayer position stage)
  | .missingSelectedLayer position stage => .ok (.missingSelectedLayer position stage)
  | .oneBelow => .ok .oneBelow
  | .allBelow => .ok .allBelow
  | .cleanProgram => .ok .cleanProgram
  | .programHistory => .ok .programHistory
  | .groupOutput groupId => .ok (.groupOutput groupId)
  | .missingGroupOutput groupId => .ok (.missingGroupOutput groupId)

def fromRuntime (matte : LayerMatte ImageInput)
    (positionOfLayer : StableLayerId → Option SavedLayerPosition) :
    Except ImageRouteDiagnostic (LayerMatte SavedImageInput) := do
  let value := matte.sanitized
  let input ← savedInput positionOfLayer value.input
  return ⟨value.enabled, input, value.amount⟩

/-- What a capture keeps of a matte: the default when its donor is lost. -/
def captured (matte : LayerMatte ImageInput)
    (positionOfLayer : StableLayerId → Option SavedLayerPosition) :
    LayerMatte SavedImageInput :=
  match matte.fromRuntime positionOfLayer with
  | .ok saved => saved
  | .error _ => ⟨false, .oneBelow, 1⟩

end LayerMatte

variable {L L' M M' : Type}

structure GraphLayer (L T D M : Type) where
  name : L
  rack : VisualRack T D
  matte : M

structure VisualGraph (L T D M : Type) where
  masterRack : VisualRack T D
  layers : List (GraphLayer L T D M)
  tree : Tree L (GroupBody T D)

abbrev SavedGraph :=
  VisualGraph SavedLayerPosition SavedImageTap SavedMotionDonor (LayerMatte SavedImageInput)

abbrev LiveGraph := VisualGraph StableLayerId ResolvedImageTap MotionDonor (LayerMatte ImageInput)

def VisualRack.mapRoutes (f : T → T') (g : D → D') (rack : VisualRack T D) : VisualRack T' D' :=
  ⟨rack.nodes.map (VisualNode.mapRoutes f g), rack.nextNodeId⟩

def GroupBody.mapRoutes (f : T → T') (g : D → D') (body : GroupBody T D) : GroupBody T' D' where
  name := body.name
  opacity := body.opacity
  transform := body.transform
  rack := body.rack.mapRoutes f g
  matte := body.matte.map (ImageMatte.mapRoutes f)
  solo := body.solo
  bypass := body.bypass
  bus := body.bus

def RootItem.rename (name : L → L') : RootItem L → RootItem L'
  | layer layerId bus => .layer (name layerId) bus
  | group groupId => .group groupId

def Group.rename {Body Body' : Type} (name : L → L') (body : Body → Body')
    (group : Group L Body) : Group L' Body' :=
  ⟨group.id, group.members.map name, body group.body⟩

def Tree.rename {Body Body' : Type} (name : L → L') (body : Body → Body')
    (tree : Tree L Body) : Tree L' Body' :=
  ⟨tree.groups.map (Group.rename name body), tree.root.map (RootItem.rename name)⟩

def VisualGraph.rename (name : L → L') (f : T → T') (g : D → D')
    (matte : M → M') (graph : VisualGraph L T D M) : VisualGraph L' T' D' M' where
  masterRack := graph.masterRack.mapRoutes f g
  layers := graph.layers.map fun layer =>
    ⟨name layer.name, layer.rack.mapRoutes f g, matte layer.matte⟩
  tree := graph.tree.rename name (GroupBody.mapRoutes f g)

inductive GraphRefusal
  | positionBounds (position : ℕ)
  | unknownGroup (groupId : GroupId)
  | notInComposition (consumer : VisualScopeId)
  | graph (error : ImageGraphError)

inductive SavedRequest
  | tap (tap : SavedImageTap)
  | layerMatte (input : SavedImageInput)

theorem validationId_isIdentity (position : SavedLayerPosition) :
    0 < position.val + 1 ∧ position.val + 1 ≤ u64Max := by
  have hbd : maxSavedLayerPosition + 1 ≤ u64Max := by decide
  omega

def validationId (position : SavedLayerPosition) : StableLayerId :=
  ⟨position.val + 1, validationId_isIdentity position⟩

def validationLayerScope (position : SavedLayerPosition) : VisualScopeId :=
  .layer (validationId position)

def savedRoutes (rack : VisualRack T D) : List T :=
  (rack.nodes.filter fun node => node.enabled && lt 0 node.wet).flatMap
    fun node => node.kind.admittedRoutes.map Prod.snd

/-- The routes of a rack and a matte, for one consumer. -/
def savedGroupRequests (group : Group SavedLayerPosition
    (GroupBody SavedImageTap SavedMotionDonor)) :
    List (VisualScopeId × SavedRequest) :=
  if group.body.bypass then []
  else
    ((savedRoutes group.body.rack ++
      (group.body.matte.filter fun matte => lt 0 matte.amount).toList.map
        ImageMatte.tap).map fun tap => (.group group.id, .tap tap))

def savedLayerRequests (layer : GraphLayer SavedLayerPosition SavedImageTap
    SavedMotionDonor (LayerMatte SavedImageInput)) :
    List (VisualScopeId × SavedRequest) :=
  let consumer := validationLayerScope layer.name
  (savedRoutes layer.rack).map (fun tap => (consumer, .tap tap)) ++
    if layer.matte.isActive then [(consumer, .layerMatte layer.matte.input)]
    else []

/-- The requests of `validate_visual_graph`, in its order. -/
def SavedGraph.requests (graph : SavedGraph) : List (VisualScopeId × SavedRequest) :=
  (savedRoutes graph.masterRack).map (fun tap => (.master, .tap tap)) ++
    graph.layers.flatMap savedLayerRequests ++
    graph.tree.groups.flatMap savedGroupRequests

structure CollectedEdges where
  dependencies : List ImageDependency
  orderingEdges : List ImageOrderingEdge

namespace CollectedEdges

def none : CollectedEdges := ⟨[], []⟩

def one (consumer producer : VisualScopeId) (timing : EdgeTiming) : CollectedEdges :=
  ⟨[⟨consumer, producer, timing⟩], []⟩

/-- `collect_all_below_dependency`. -/
def allBelow (consumer : VisualScopeId) (producers : List VisualScopeId)
    (timing : EdgeTiming) : CollectedEdges :=
  match producers.getLast? with
  | .none => none
  | some representative => {
      dependencies := [⟨consumer, representative, timing⟩]
      orderingEdges :=
        if timing = .currentFrame then producers.map fun producer => ⟨producer, consumer⟩
        else [] }

/-- The dependency on the last scope below, if there is one. -/
def oneBelow (consumer : VisualScopeId) (producers : List VisualScopeId)
    (timing : EdgeTiming) : CollectedEdges :=
  match producers.getLast? with
  | .none => none
  | some producer => one consumer producer timing

def append (s t : CollectedEdges) : CollectedEdges :=
  ⟨s.dependencies ++ t.dependencies, s.orderingEdges ++ t.orderingEdges⟩

end CollectedEdges

abbrev BelowTable := VisualScopeId → Option (List VisualScopeId)

def belowFor (below : BelowTable) (consumer : VisualScopeId) :
    Except GraphRefusal (List VisualScopeId) :=
  Checks.require (below consumer) (.notInComposition consumer)

/-- What `collect_saved_tap_dependency` adds. -/
def savedTapEdges (below : BelowTable) (consumer : VisualScopeId)
    (tap : SavedImageTap) : Except GraphRefusal CollectedEdges :=
  match tap.source with
  | .selectedLayer position .postLocalEffects =>
    .ok (.one consumer (validationLayerScope position) tap.timing)
  | .selectedLayer position .preLocalEffects =>
    if tap.timing = .previousFrame then
      .ok (.one consumer (validationLayerScope position) tap.timing)
    else .ok .none
  | .missingSelectedLayer _ _ => .ok .none
  | .missingGroupOutput _ => .ok .none
  | .oneBelow => do
      let producers ← belowFor below consumer
      return .oneBelow consumer producers tap.timing
  | .allBelow => do
      let producers ← belowFor below consumer
      return .allBelow consumer producers tap.timing
  | .groupOutput groupId => .ok (.one consumer (.group groupId) tap.timing)
  | .cleanProgram => .ok (.one consumer .program tap.timing)
  | .gestureCanvas => .ok .none
  | .programTap => .ok .none

/-- What `collect_legacy_layer_matte_dependency` adds. -/
def savedMatteEdges (below : BelowTable) (consumer : VisualScopeId)
    (input : SavedImageInput) : Except GraphRefusal CollectedEdges :=
  match input with
  | .selectedLayer position .postLocalEffects =>
    .ok (.one consumer (validationLayerScope position) .currentFrame)
  | .selectedLayer _ .preLocalEffects => .ok .none
  | .missingSelectedLayer _ _ => .ok .none
  | .missingGroupOutput _ => .ok .none
  | .oneBelow => do
      let producers ← belowFor below consumer
      return .oneBelow consumer producers .currentFrame
  | .allBelow => do
      let producers ← belowFor below consumer
      return .allBelow consumer producers .currentFrame
  | .programHistory => .ok (.one consumer .program .previousFrame)
  | .cleanProgram => .ok (.one consumer .program .currentFrame)
  | .groupOutput groupId => .ok (.one consumer (.group groupId) .currentFrame)

def savedRequestEdges (below : BelowTable) (consumer : VisualScopeId) :
    SavedRequest → Except GraphRefusal CollectedEdges
  | .tap tap => savedTapEdges below consumer tap
  | .layerMatte input => savedMatteEdges below consumer input

def collectSaved (below : BelowTable) (s : CollectedEdges)
    (request : VisualScopeId × SavedRequest) :
    Except GraphRefusal CollectedEdges := do
  let added ← savedRequestEdges below request.1 request.2
  return s.append added

/-- The local variables of `validation_topology`. -/
structure ValidationTopology where
  scopes : List VisualScopeId
  below : BelowTable
  orderingEdges : List ImageOrderingEdge
  precedingRootOutputs : List VisualScopeId

variable {Body Body' : Type}

/-- One turn of the loop over the members of a group, with the members that
precede them. -/
def validationMember (scopeOf : L → VisualScopeId) (groupScope : VisualScopeId)
    (s : ValidationTopology × List VisualScopeId) (layer : L) :
    ValidationTopology × List VisualScopeId :=
  let scope := scopeOf layer
  ({ s.1 with
      scopes := s.1.scopes ++ [scope]
      below := insertAll s.1.below [(scope, s.2)]
      orderingEdges := s.1.orderingEdges ++ [⟨scope, groupScope⟩] },
    s.2 ++ [scope])

def validationItem (scopeOf : L → VisualScopeId) (tree : Tree L Body) (s : ValidationTopology) :
    RootItem L → Except GraphRefusal ValidationTopology
  | .layer layer _ =>
    .ok { s with
      scopes := s.scopes ++ [scopeOf layer]
      below := insertAll s.below [(scopeOf layer, s.precedingRootOutputs)]
      precedingRootOutputs := s.precedingRootOutputs ++ [scopeOf layer] }
  | .group groupId =>
    match tree.group groupId with
    | none => .error (.unknownGroup groupId)
    | some group =>
      let members := (group.members.foldl
        (validationMember scopeOf (.group groupId))
        (s, s.precedingRootOutputs)).1
      .ok { members with
        scopes := members.scopes ++ [.group groupId]
        below := insertAll members.below [(.group groupId, s.precedingRootOutputs)]
        precedingRootOutputs := s.precedingRootOutputs ++ [.group groupId] }

/-- `validation_topology`; the identities of its layers are a parameter. -/
def validationTopology (scopeOf : L → VisualScopeId) (tree : Tree L Body) :
    Except GraphRefusal ValidationTopology := do
  let s ← tree.root.foldlM (validationItem scopeOf tree)
    ⟨[], fun _ => none, [], []⟩
  return { s with
    scopes := s.scopes ++ [.master]
    below := insertAll s.below [(.master, s.precedingRootOutputs)] }

def SavedGraph.collect (graph : SavedGraph) :
    Except GraphRefusal (List VisualScopeId × CollectedEdges) := do
  let topology ← validationTopology validationLayerScope graph.tree
  let collected ← graph.requests.foldlM (collectSaved topology.below)
    ⟨[], topology.orderingEdges⟩
  return (topology.scopes, collected)

def SavedGraph.validate (graph : SavedGraph) :
    Except GraphRefusal ImageGraphPlan := do
  let (scopes, collected) ← graph.collect
  (validateWithOrderingEdges scopes collected.dependencies
    collected.orderingEdges .advanced).mapError .graph

structure SavedLayer where
  rack : Option SavedVisualRack
  matte : LayerMatte SavedImageInput

/-- The part of a patch that its visual graph is read from. -/
structure PatchState where
  masterRack : Option SavedVisualRack
  layers : List SavedLayer
  composition : Option CompositionTree

def maxCompositionLayers : ℕ := 256

def VisualRack.syntheticLegacy : LegacyRackScope → VisualRack T D
  | .group => .empty
  | .layer => ⟨[.authored .legacyCanonical .legacyCanonical], 3⟩
  | .master =>
    ⟨[.authored .legacyCanonical .legacyCanonical, .authored .legacyTemporal .legacyTemporal], 3⟩

def VisualNode.isMarker (node : VisualNode T D) (id : NodeId) (tag : NodeKindTag) : Bool :=
  decide (node.stableId = id) && node.isExactLegacyMarker tag

/-- `is_exact_legacy`; its signature follows from the nodes. -/
def VisualRack.isExactLegacy (rack : VisualRack T D) : LegacyRackScope → Bool
  | .group => rack.nodes.isEmpty
  | .layer =>
    match rack.nodes with
    | [canonical] => canonical.isMarker .legacyCanonical .legacyCanonical
    | _ => false
  | .master =>
    match rack.nodes with
    | [canonical, temporal] =>
      canonical.isMarker .legacyCanonical .legacyCanonical &&
        temporal.isMarker .legacyTemporal .legacyTemporal
    | _ => false

namespace PatchState

def effectiveMasterRack (patch : PatchState) : SavedVisualRack :=
  patch.masterRack.getD (.syntheticLegacy .master)

/-- A root of layers that go to the program, front to back. -/
def isLegacyRoot (root : List (RootItem SavedLayerPosition)) : Bool :=
  root.reverse.zipIdx.all fun
    | (.layer layer .program, expected) => decide (layer.val = expected)
    | _ => false

def isGlobalLegacyExact (patch : PatchState) : Bool :=
  patch.effectiveMasterRack.isExactLegacy .master &&
    (patch.layers.all fun layer =>
      let matte := layer.matte.sanitized
      (layer.rack.all fun rack => rack.isExactLegacy .layer) &&
        (!matte.enabled || le matte.amount 0)) &&
    match patch.composition with
    | none => true
    | some composition =>
      composition.tree.groups.isEmpty && composition.busCrossfade.eq 0.5 &&
        decide (composition.tree.root.length = patch.layers.length) &&
        isLegacyRoot composition.tree.root

def savedPositionAt (position : ℕ) : Except GraphRefusal SavedLayerPosition :=
  if h : position ≤ maxSavedLayerPosition then .ok ⟨position, h⟩
  else .error (.positionBounds position)

/-- `legacy_composition_for_positions`. -/
def legacyTree (positions : List SavedLayerPosition) :
    Tree SavedLayerPosition (GroupBody SavedImageTap SavedMotionDonor) :=
  ⟨[], positions.reverse.map fun layer => .layer layer .program⟩

/-- A layer with its position and what it leaves out filled in. -/
def effectiveLayer (entry : SavedLayer × ℕ) :
    Except GraphRefusal (GraphLayer SavedLayerPosition SavedImageTap
      SavedMotionDonor (LayerMatte SavedImageInput)) := do
  let position ← savedPositionAt entry.2
  return ⟨position, entry.1.rack.getD (.syntheticLegacy .layer), entry.1.matte⟩

/-- The graph of a patch with what it leaves out filled in. -/
def graph (patch : PatchState) : Except GraphRefusal SavedGraph := do
  let layers ← patch.layers.zipIdx.mapM effectiveLayer
  return {
    masterRack := patch.effectiveMasterRack
    layers := layers
    tree :=
      match patch.composition with
      | none => legacyTree (layers.map GraphLayer.name)
      | some composition => composition.tree }

def validateVisualGraph (patch : PatchState) : Except GraphRefusal Unit :=
  if maxCompositionLayers < patch.layers.length ∧ patch.isGlobalLegacyExact then .ok ()
  else do
    let graph ← patch.graph
    let _ ← graph.validate

end PatchState

/-- The routes that the planner reads of a rack, with their nodes and slots. -/
def liveRoutes (rack : VisualRack T D) : List (NodeId × ℕ × T) :=
  (rack.nodes.filter fun node =>
    !(!node.enabled || le node.wet 0)).flatMap fun node =>
      node.kind.admittedRoutes.map fun route => (node.stableId, route)

inductive RefreshGardenMatteRoute
  | none
  | selectedLayer (layerId : StableLayerId) (savedPosition : SavedLayerPosition)
      (stage : LayerImageStage)
  | missingSelectedLayer (savedPosition : SavedLayerPosition)
      (stage : LayerImageStage)

/-- What the planner reads of a frame to collect its taps. -/
structure LiveShow where
  graph : LiveGraph
  (programHistoryInitialized gestureCanvasAdmitted programTapAdmitted : Bool)
  gardenMatteRoute : RefreshGardenMatteRoute

/-- The diagnostic of `composition_layer_matte`. -/
def matteDiagnostic (matte : LayerMatte ImageInput)
    (programHistoryInitialized : Bool) : ImageRouteDiagnostic :=
  if !matte.enabled then .disabled
  else
    match matte.input with
    | .missingSelectedLayer position _ => .missing (.selectedLayer position)
    | .missingGroupOutput groupId => .missing (.groupOutputUnavailable groupId)
    | .programHistory =>
      if programHistoryInitialized then .ready
      else .missing .programHistoryUninitialized
    | .cleanProgram => .cycle .cleanProgramSameFrame
    | _ => .ready

/-- `collect_rack_taps`. -/
def liveRackRequests (scope : VisualScopeId) (rack : RuntimeVisualRack) :
    List (ImageTapConsumer × PlannedImageTapOrigin) :=
  (liveRoutes rack).map fun route => (.rackNode scope route.1 route.2.1, .rack route.2.2)

namespace LiveShow

def layerRequests (live : LiveShow) (layer : GraphLayer StableLayerId
    ResolvedImageTap MotionDonor (LayerMatte ImageInput)) :
    List (ImageTapConsumer × PlannedImageTapOrigin) :=
  let matte := layer.matte.sanitized
  liveRackRequests (.layer layer.name) layer.rack ++
    if matte.isActive then
      [(.layerMatte layer.name, .legacyLayerMatte matte.input
        (matteDiagnostic matte live.programHistoryInitialized))]
    else []

def groupRequests (group : Group StableLayerId
    (GroupBody ResolvedImageTap MotionDonor)) :
    List (ImageTapConsumer × PlannedImageTapOrigin) :=
  if group.body.bypass then []
  else
    liveRackRequests (.group group.id) group.body.rack ++
      (group.body.matte.filter fun matte => lt 0 matte.amount).toList.map
        fun matte => (.groupMatte group.id, .rack matte.tap)

def gardenRequests (live : LiveShow) : List (ImageTapConsumer × PlannedImageTapOrigin) :=
  match live.gardenMatteRoute with
  | .none => []
  | .selectedLayer layerId position stage =>
    [(.refreshGardenMatte, .rack ⟨.selectedLayer layerId position stage, .currentFrame⟩)]
  | .missingSelectedLayer position stage =>
    [(.refreshGardenMatte, .rack ⟨.missingSelectedLayer position stage, .currentFrame⟩)]

/-- The requests of nodes and mattes, in the order of the planner: a validated
composition has a layer and a group for each name. -/
def requests (live : LiveShow) : List (ImageTapConsumer × PlannedImageTapOrigin) :=
  (live.graph.tree.flattenedLayers.flatMap fun layerId =>
    (live.graph.layers.find? fun layer => layer.name = layerId).toList.flatMap
      live.layerRequests) ++
  (live.graph.tree.rootedGroups.flatMap fun groupId =>
    (live.graph.tree.group groupId).toList.flatMap groupRequests) ++
  liveRackRequests .master live.graph.masterRack

def collect (live : LiveShow) (requests : List (ImageTapConsumer × PlannedImageTapOrigin)) :
    Except CompositionPlanError CollectedTaps := do
  let below ← belowTopology live.graph.tree
  collectTaps ⟨below, live.graph.tree.knownScopes, live.gestureCanvasAdmitted,
    live.programTapAdmitted⟩ requests

/-- The scopes that dependencies name, the program left out. -/
def sparseScopes (dependencies : List ImageDependency) : List VisualScopeId :=
  (dependencies.flatMap fun dependency =>
    dependency.consumer ::
      if dependency.producer ≠ .program then [dependency.producer]
      else []).toFinset.sort

/-- The taps of a frame, its sparse graph and its execution order. -/
def plan (live : LiveShow) : Option (Except CompositionPlanError (List VisualScopeId)) :=
  match belowTopology live.graph.tree,
    live.collect (live.requests ++ live.gardenRequests) with
  | .ok below, .ok collected =>
    match validateDependencies (sparseScopes collected.dependencies)
      collected.dependencies .advanced with
    | .ok _ =>
      executionOrder live.graph.tree.knownScopes live.graph.tree below
        collected.routeEdges collected.prefixConstraints
    | .error error => some (.error (.imageGraph error))
  | .error error, _ => some (.error error)
  | _, .error error => some (.error error)

end LiveShow

end CollideOScope.Composition
