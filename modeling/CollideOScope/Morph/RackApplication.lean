import CollideOScope.Composition.Rack
import CollideOScope.Support.KeyedWrites

/-!
# Writing sampled values into live racks

A morph is sampled into a rack of its own, and the sampled values are written
into the live rack node by node.  The routes of the live rack stay: a topology
gate refuses a sample whose nodes, kinds or routes differ.
-/

namespace CollideOScope.Morph

open List Composition

variable {T D : Type}

def fnvOffset : UInt64 := 0xcbf29ce484222325

def fnvPrime : UInt64 := 0x100000001b3

/-- `signature_step`: one word, least byte first. -/
def signatureStep (hash : UInt64) (value : ℕ) : UInt64 :=
  (leBytes 8 value).foldl (fun hash byte => (hash ^^^ byte.toUInt64) * fnvPrime) hash

def signatureCode : NodeKindTag → ℕ
  | .legacyCanonical => 1
  | .legacyTemporal => 2
  | .transform => 3
  | .digitalColor => 4
  | .key => 5
  | .cellular => 6
  | .shift => 7
  | .grain => 8
  | .mask => 9
  | .displace => 10
  | .residual => 11
  | .symmetry => 12
  | .study => 13
  | .scanProcessor => 14
  | .blockDct => 15
  | .pixelSort => 16
  | .avalanche => 17

/-- `topology_signature`: the identities and the kinds of a rack, in order. -/
def topologySignature (nodes : List (VisualNode T D)) : UInt64 :=
  nodes.foldl (fun hash node =>
    signatureStep (signatureStep hash node.stableId.val) (signatureCode node.kind.tag)) fnvOffset

/-- `runtime_node_value_topology_matches`. -/
def nodeValueTopologyMatches (a b : NodeKind T D) : Bool :=
  if a.tag ≠ b.tag then false
  else
    match a, b with
    | .mask (.rectangle _), .mask (.rectangle _) => true
    | .mask (.ellipse _), .mask (.ellipse _) => true
    | .mask (.image _), .mask (.image _) => true
    | .mask _, .mask _ => false
    | _, _ => true

/-- `runtime_racks_share_value_topology`. -/
def racksShareValueTopology (a b : VisualRack T D) : Bool :=
  topologySignature a.nodes = topologySignature b.nodes &&
    decide (a.nodes.length = b.nodes.length) &&
    (a.nodes.zip b.nodes).all fun pair =>
      decide (pair.1.stableId = pair.2.stableId) && nodeValueTopologyMatches pair.1.kind pair.2.kind

section

variable [DecidableEq T] [DecidableEq D]

def nodeRoutesMatch : NodeKind T D → NodeKind T D → Bool
  | .mask (.image a), .mask (.image b) =>
    decide (a.tap = b.tap) && decide (a.channel = b.channel) && a.invert == b.invert
  | .displace a, .displace b => decide (a.tap = b.tap)
  | .symmetry a, .symmetry b =>
    decide (a.donors.x = b.donors.x) && decide (a.donors.y = b.donors.y) &&
      decide (a.motion.x = b.motion.x) && decide (a.motion.y = b.motion.y) &&
      decide (a.sourceMask.sanitized = b.sourceMask.sanitized) &&
      decide (a.motionMask = b.motionMask)
  | .residual a, .residual b =>
    decide (a.structureTap = b.structureTap) && decide (a.detail = b.detail)
  | _, _ => true

/-- `runtime_racks_share_strict_topology`. -/
def racksShareStrictTopology (a b : VisualRack T D) : Bool :=
  racksShareValueTopology a b &&
    (a.nodes.zip b.nodes).all fun pair => nodeRoutesMatch pair.1.kind pair.2.kind

end

/-- `apply_runtime_image_matte_values`. -/
def applyImageMatteValues (sampled live : ImageMatte T) : ImageMatte T :=
  { live with
    amount := sampled.amount
    threshold := sampled.threshold
    softness := sampled.softness }

def applyDisplaceValues (sampled live : DisplaceParams T) : DisplaceParams T :=
  { live with
    amountX := sampled.amountX
    amountY := sampled.amountY
    boundary := sampled.boundary }

def applySymmetryValues (sampled live : SymmetryParams T D) : SymmetryParams T D :=
  { live with
    mode := sampled.mode
    baseFolds := sampled.baseFolds
    foldOffset := sampled.foldOffset
    radialPhaseDeg := sampled.radialPhaseDeg
    orbitPhase := sampled.orbitPhase
    planarAxisDeg := sampled.planarAxisDeg
    planarPhase := sampled.planarPhase
    cellSkew := sampled.cellSkew
    spiralScale := sampled.spiralScale
    orbitRadius := sampled.orbitRadius
    orbitSpinDeg := sampled.orbitSpinDeg
    center := sampled.center
    boundary := sampled.boundary
    motionGain := sampled.motionGain
    hueSpan := sampled.hueSpan
    seed := sampled.seed }

def applyResidualValues (sampled live : ResidualParams T) : ResidualParams T :=
  { live with
    algorithmVersion := sampled.algorithmVersion
    block := sampled.block
    quantization := sampled.quantization
    mix := sampled.mix
    detailGain := sampled.detailGain
    seed := sampled.seed }

/-- `apply_runtime_node_kind_values`: what it returns, and the live kind
afterwards.  Two Study nodes meet the last arm. -/
def applyNodeKindValues (sampled live : NodeKind T D) : Bool × NodeKind T D :=
  match sampled, live with
  | .legacyCanonical, .legacyCanonical => (true, live)
  | .legacyTemporal, .legacyTemporal => (true, live)
  | .transform value, .transform _ => (true, .transform value)
  | .digitalColor value, .digitalColor _ => (true, .digitalColor value)
  | .key value, .key _ => (true, .key value)
  | .cellular value, .cellular _ => (true, .cellular value)
  | .shift value, .shift _ => (true, .shift value)
  | .grain value, .grain _ => (true, .grain value)
  | .mask (.rectangle value), .mask (.rectangle _) => (true, .mask (.rectangle value))
  | .mask (.ellipse value), .mask (.ellipse _) => (true, .mask (.ellipse value))
  | .mask (.image value), .mask (.image matte) =>
    (true, .mask (.image (applyImageMatteValues value matte)))
  | .displace value, .displace params => (true, .displace (applyDisplaceValues value params))
  | .symmetry value, .symmetry params => (true, .symmetry (applySymmetryValues value params))
  | .residual value, .residual params => (true, .residual (applyResidualValues value params))
  | .scanProcessor value, .scanProcessor _ => (true, .scanProcessor value)
  | .blockDct value, .blockDct _ => (true, .blockDct value)
  | .pixelSort value, .pixelSort _ => (true, .pixelSort value)
  | .avalanche value, .avalanche _ => (true, .avalanche value)
  | _, _ => (false, live)

/-- One turn of the loop of `apply_runtime_rack_values`: the switch, the wet
and the blend are written before the kinds are matched. -/
def applyNode (sampled live : VisualNode T D) : Bool × VisualNode T D :=
  ((applyNodeKindValues sampled.kind live.kind).1,
    { live with
      enabled := sampled.enabled
      wet := sampled.wet
      blend := sampled.blend
      kind := (applyNodeKindValues sampled.kind live.kind).2 })

/-- The loop of `apply_runtime_rack_values`: what it returns, and the live nodes
afterwards.  The result is `none` where `expect` panics, as no live node has the
sampled identity. -/
def applyNodes (sampled live : List (VisualNode T D)) : Option (Bool × List (VisualNode T D)) :=
  writeEach VisualNode.stableId (fun sampled live => some (applyNode sampled live)) sampled live

/-- `apply_runtime_rack_values`. -/
def applyRackValues (sampled live : VisualRack T D) : Option (Bool × VisualRack T D) :=
  if racksShareValueTopology sampled live then
    (applyNodes sampled.nodes live.nodes).map fun result =>
      (result.1, { live with nodes := result.2 })
  else some (false, live)

/-- `apply_runtime_rack_values_strict`. -/
def applyRackValuesStrict [DecidableEq T] [DecidableEq D]
    (sampled live : VisualRack T D) : Option (Bool × VisualRack T D) :=
  if racksShareStrictTopology sampled live then applyRackValues sampled live
  else some (false, live)

/-!
## When a rack is written whole

A node is its routes and its values.
-/

/-- What the topology of a node fixes beside its kind. -/
inductive NodeRoutes (T D : Type)
  | none
  | mask (tap : T) (channel : MatteChannel) (invert : Bool)
  | displace (tap : T)
  | symmetry (donors : Vec2 T) (motion : Vec2 D)
      (sourceMask : SymmetrySourceMask) (motionMask : SymmetryMotionMask)
  | residual (structureTap detail : T)

def nodeRoutes : NodeKind T D → NodeRoutes T D
  | .mask (.image matte) => .mask matte.tap matte.channel matte.invert
  | .displace params => .displace params.tap
  | .symmetry params => .symmetry params.donors params.motion params.sourceMask params.motionMask
  | .residual params => .residual params.structureTap params.detail
  | _ => .none

def nodeValues : NodeKind T D → NodeKind Unit Unit
  | .mask (.image matte) =>
    .mask (.image
      { matte.mapRoutes (fun _ => ()) with
        channel := .alpha
        invert := false })
  | .symmetry params =>
    .symmetry
      { params.mapRoutes (fun _ => ()) (fun _ => ()) with
        sourceMask := ⟨false, false, false, false⟩
        motionMask := ⟨false, false⟩ }
  | kind => kind.mapRoutes (fun _ => ()) (fun _ => ())

theorem tag_nodeValues (kind : NodeKind T D) : (nodeValues kind).tag = kind.tag := by
  rcases kind with _ | _ | _ | _ | _ | _ | _ | _ |
    (_ | _ | _) | _ | _ | _ | _ | _ | _ | _ | _ <;> rfl

theorem maskParams_ext {a b : MaskParams T}
    (hroutes : nodeRoutes (D := D) (.mask a) = nodeRoutes (.mask b))
    (hvalues : nodeValues (D := D) (.mask a) = nodeValues (D := D) (.mask b)) :
    a = b := by
  cases a with
  | rectangle a | ellipse a =>
    cases b <;> simp_all [nodeValues, NodeKind.mapRoutes, MaskParams.mapRoutes]
  | image a =>
    cases b with
    | rectangle b | ellipse b => cases hroutes
    | image b =>
      cases a
      cases b
      simp_all [nodeValues, nodeRoutes, ImageMatte.mapRoutes]

variable {a b : NodeKind T D}

theorem nodeKind_ext (hroutes : nodeRoutes a = nodeRoutes b)
    (hvalues : nodeValues a = nodeValues b) : a = b := by
  have htag : a.tag = b.tag := by rw [← tag_nodeValues a, ← tag_nodeValues b, hvalues]
  cases a with cases b <;> cases htag
  | mask a => rw [maskParams_ext hroutes hvalues]
  | displace a =>
    rename_i b
    cases a
    cases b
    simp_all [nodeValues, nodeRoutes, NodeKind.mapRoutes, DisplaceParams.mapRoutes]
  | symmetry a =>
    rename_i b
    cases a
    cases b
    simp_all [nodeValues, nodeRoutes, SymmetryParams.mapRoutes]
  | residual a =>
    rename_i b
    cases a
    cases b
    simp_all [nodeValues, nodeRoutes, NodeKind.mapRoutes, ResidualParams.mapRoutes]
  | _ =>
    all_goals first
      | rfl
      | simpa [nodeValues, NodeKind.mapRoutes] using hvalues

/-- The node carries the sampled values under the live routes. -/
structure NodeWritten (sampled live after : VisualNode T D) : Prop where
  stableId : after.stableId = live.stableId
  enabled : after.enabled = sampled.enabled
  wet : after.wet = sampled.wet
  blend : after.blend = sampled.blend
  values : nodeValues after.kind = nodeValues sampled.kind
  routes : nodeRoutes after.kind = nodeRoutes live.kind

theorem nodeValueTopologyMatches_tag (h : nodeValueTopologyMatches a b = true) : a.tag = b.tag := by
  by_contra hne
  simp [nodeValueTopologyMatches, hne] at h

theorem applyNodeKindValues_spec {sampled live : NodeKind T D}
    (h : nodeValueTopologyMatches sampled live = true) :
    (live.tag = .study ∧ applyNodeKindValues sampled live = (false, live)) ∨
      (live.tag ≠ .study ∧ (applyNodeKindValues sampled live).1 = true ∧
        nodeValues (applyNodeKindValues sampled live).2 = nodeValues sampled ∧
        nodeRoutes (applyNodeKindValues sampled live).2 = nodeRoutes live) := by
  have htag := nodeValueTopologyMatches_tag h
  cases sampled with
  | mask sampled =>
    cases live <;> cases htag
    rename_i live
    right
    cases sampled <;> cases live <;> first
      | exact ⟨by simp [NodeKind.tag], rfl, rfl, rfl⟩
      | (simp [nodeValueTopologyMatches, NodeKind.tag] at h)
  | study sampled =>
    cases live <;> cases htag
    exact .inl ⟨rfl, rfl⟩
  | _ =>
    cases live <;> cases htag
    exact .inr ⟨by simp [NodeKind.tag], rfl, rfl, rfl⟩

theorem applyNode_spec {sampled live : VisualNode T D}
    (hkind : nodeValueTopologyMatches sampled.kind live.kind = true) :
    ((applyNode sampled live).1 = false ∧ live.kind.tag = .study ∧
        (NodeWritten sampled live (applyNode sampled live).2 ↔
          nodeValues live.kind = nodeValues sampled.kind)) ∨
      ((applyNode sampled live).1 = true ∧ live.kind.tag ≠ .study ∧
        NodeWritten sampled live (applyNode sampled live).2) := by
  rcases applyNodeKindValues_spec hkind with ⟨htag, hkept⟩ | ⟨htag, hdone, hvalues, hroutes⟩
  · left
    refine ⟨by simp [applyNode, hkept], htag, ?_⟩
    constructor
    · intro hwrit
      simpa [applyNode, hkept] using hwrit.values
    · intro hvalues
      constructor <;> simp [applyNode, hkept, hvalues]
  · right
    exact ⟨hdone, htag, ⟨rfl, rfl, rfl, rfl, hvalues, hroutes⟩⟩

def NodesAlike (sampled live : VisualNode T D) : Prop :=
  sampled.stableId = live.stableId ∧ nodeValueTopologyMatches sampled.kind live.kind = true

/-- From the first Study node on the live nodes already carry what is sampled;
of that node only its document is compared. -/
def AgreeFromStudy : List (VisualNode T D) → List (VisualNode T D) → Prop
  | sampled :: rest, live :: lives =>
    if live.kind.tag = .study then
      nodeValues live.kind = nodeValues sampled.kind ∧ Forall₃ NodeWritten rest lives lives
    else AgreeFromStudy rest lives
  | _, _ => True

variable {sampled live : List (VisualNode T D)}

theorem agreeFromStudy_of_no_study (h : ∀ node ∈ live, node.kind.tag ≠ .study) :
    AgreeFromStudy sampled live := by
  induction live generalizing sampled with
  | nil => cases sampled <;> trivial
  | cons node rest ih =>
    cases sampled with
    | nil => trivial
    | cons given givens =>
      rw [AgreeFromStudy, if_neg (h node mem_cons_self)]
      exact ih fun other hother => h other (mem_cons_of_mem _ hother)

theorem writeAlong_spec (h : List.Forall₂ NodesAlike sampled live) :
    ∃ done after,
      writeAlong (fun sampled live => some (applyNode sampled live))
        sampled live = some (done, after) ∧
      (done = true ↔ ∀ node ∈ live, node.kind.tag ≠ .study) ∧
      (Forall₃ NodeWritten sampled live after ↔ AgreeFromStudy sampled live) := by
  induction h with
  | nil => exact ⟨true, [], rfl, by simp, Iff.rfl⟩
  | cons hhead htail ih =>
    rename_i given node givens rest
    rw [writeAlong]
    rcases applyNode_spec hhead.2 with ⟨hstop, htag, hwrit⟩ | ⟨hgo, htag, hwrit⟩
    · refine ⟨false, (applyNode given node).2 :: rest, ?_, ?_, ?_⟩
      · simp [hstop]
      · simp [htag]
      · rw [AgreeFromStudy, if_pos htag, Forall₃, hwrit]
    · obtain ⟨done, after, hrest, hdone, hafter⟩ := ih
      refine ⟨done, (applyNode given node).2 :: after, ?_, ?_, ?_⟩
      · simp [hgo, hrest]
      · simp [htag, hdone]
      · rw [AgreeFromStudy, if_neg htag, Forall₃, hafter]
        simp [hwrit]

theorem forall₂_nodesAlike {a b : VisualRack T D} (h : racksShareValueTopology a b = true) :
    List.Forall₂ NodesAlike a.nodes b.nodes := by
  simp only [racksShareValueTopology, Bool.and_eq_true, decide_eq_true_eq, all_eq_true] at h
  rw [forall₂_iff_zip]
  exact ⟨h.1.2, fun hmem => h.2 _ hmem⟩

def DistinctNodes (rack : VisualRack T D) : Prop := (rack.nodes.map VisualNode.stableId).Nodup

structure RackWritten (sampled live after : VisualRack T D) : Prop where
  cursor : after.nextNodeId = live.nextNodeId
  nodes : Forall₃ NodeWritten sampled.nodes live.nodes after.nodes

def NoStudy (rack : VisualRack T D) : Prop := ∀ node ∈ rack.nodes, node.kind.tag ≠ .study

theorem applyRackValues_spec {sampled live : VisualRack T D}
    (hshared : racksShareValueTopology sampled live = true) (hdist : DistinctNodes live) :
    ∃ done after, applyRackValues sampled live = some (done, after) ∧
      (done = true ↔ NoStudy live) ∧
      (RackWritten sampled live after ↔ AgreeFromStudy sampled.nodes live.nodes) := by
  have halike := forall₂_nodesAlike hshared
  obtain ⟨done, after, hwalk, hdone, hafter⟩ := writeAlong_spec halike
  have hloop : applyNodes sampled.nodes live.nodes = some (done, after) := by
    rw [← hwalk]
    apply writeEach_eq_writeAlong _ (halike.imp fun _ _ h => h.1) hdist
    rintro given item goesOn written hwrite
    cases hwrite
    rfl
  refine ⟨done, { live with nodes := after }, ?_, hdone, ?_⟩
  · rw [applyRackValues, if_pos hshared, hloop]
    rfl
  · rw [← hafter]
    exact ⟨fun h => h.nodes, fun h => ⟨rfl, h⟩⟩

end CollideOScope.Morph
