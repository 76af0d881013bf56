import CollideOScope.Composition.Capture
import CollideOScope.Morph.RackApplication

/-!
# Presets of racks and groups

A preset is captured from a live rack or a live group: its routes are turned
into saved ones, its values are bounded and its topology is hashed.  It is
applied to a clone of the target, so a refusal leaves the target alone.
-/

namespace CollideOScope.Preset

open List Checks
open Composition
open Morph
open F32 (finiteClamp)

variable {T T' D D' : Type}

/-- `PresetId`: a `NonZeroU64`. -/
def PresetId := { value : ℕ // 0 < value ∧ value ≤ u64Max }
  deriving DecidableEq

inductive PresetError
  | unsupportedSchemaVersion (version : ℕ)
  | emptyName
  | nameTooLong (bytes limit : ℕ)
  | invalidName
  | entryTooLarge (bytes limit : ℕ)
  | libraryTooLarge (bytes limit : ℕ)
  | tooManyPresets (count limit : ℕ)
  | duplicateId (id : PresetId)
  | invalidCreatedOrdinal (ordinal : ℕ)
  | invalidNextId (next greatest : ℕ)
  | idExhausted
  | missingPreset (id : PresetId)
  | nonCanonicalTransform | rackTopologySignatureMismatch
  | groupTopologySignatureMismatch | incompatibleTarget
  | routeCapture (error : RackError)
  | serialization (error : String)

def savedNodeMatches : NodeKind T D → NodeKind T' D' → Bool
  | .mask (.rectangle _), .mask (.rectangle _) => true
  | .mask (.ellipse _), .mask (.ellipse _) => true
  | .mask (.image _), .mask (.image _) => true
  | .mask _, .mask _ => false
  | saved, live => decide (saved.tag = live.tag)

def savedAndRuntimeRacksShareValueTopology (saved : VisualRack T D)
    (live : VisualRack T' D') : Bool :=
  topologySignature saved.nodes = topologySignature live.nodes &&
    decide (saved.nodes.length = live.nodes.length) &&
    (saved.nodes.zip live.nodes).all fun pair =>
      decide (pair.1.stableId = pair.2.stableId) && savedNodeMatches pair.1.kind pair.2.kind

/-- `apply_saved_node_kind_values_to_runtime`: what it returns, and the live
kind afterwards.  Two Study nodes meet the last arm. -/
def applySavedNodeKindValues (sampled : NodeKind T D) (live : NodeKind T' D') :
    Bool × NodeKind T' D' :=
  match sampled, live with
  | .legacyCanonical, .legacyCanonical => (true, live)
  | .legacyTemporal, .legacyTemporal => (true, live)
  | .transform value, .transform _ => (true, .transform value)
  | .digitalColor value, .digitalColor _ => (true, .digitalColor value)
  | .key value, .key _ => (true, .key value)
  | .cellular value, .cellular _ => (true, .cellular value)
  | .shift value, .shift _ => (true, .shift value)
  | .grain value, .grain _ => (true, .grain value)
  | .mask (.rectangle value), .mask (.rectangle _) => (true, .mask (.rectangle value))
  | .mask (.ellipse value), .mask (.ellipse _) => (true, .mask (.ellipse value))
  | .mask (.image value), .mask (.image matte) =>
    (true, .mask (.image
      { matte with
        amount := value.amount
        threshold := value.threshold
        softness := value.softness }))
  | .displace value, .displace params =>
    (true, .displace
      { params with
        amountX := value.amountX
        amountY := value.amountY
        boundary := value.boundary })
  | .symmetry value, .symmetry params =>
    (true, .symmetry
      { params with
        mode := value.mode
        baseFolds := value.baseFolds
        foldOffset := value.foldOffset
        radialPhaseDeg := value.radialPhaseDeg
        orbitPhase := value.orbitPhase
        planarAxisDeg := value.planarAxisDeg
        planarPhase := value.planarPhase
        cellSkew := value.cellSkew
        spiralScale := value.spiralScale
        orbitRadius := value.orbitRadius
        orbitSpinDeg := value.orbitSpinDeg
        center := value.center
        boundary := value.boundary
        motionGain := value.motionGain
        hueSpan := value.hueSpan
        seed := value.seed })
  | .residual value, .residual params =>
    (true, .residual
      { params with
        algorithmVersion := value.algorithmVersion
        block := value.block
        quantization := value.quantization
        mix := value.mix
        detailGain := value.detailGain
        seed := value.seed })
  | .scanProcessor value, .scanProcessor _ => (true, .scanProcessor value)
  | .blockDct value, .blockDct _ => (true, .blockDct value)
  | .pixelSort value, .pixelSort _ => (true, .pixelSort value)
  | .avalanche value, .avalanche _ => (true, .avalanche value)
  | _, _ => (false, live)

/-- One turn of the loop of `apply_saved_rack_values_to_runtime`. -/
def applySavedNode (sampled : VisualNode T D) (live : VisualNode T' D') : Bool × VisualNode T' D' :=
  ((applySavedNodeKindValues sampled.kind live.kind).1,
    { live with
      enabled := sampled.enabled
      wet := sampled.wet
      blend := sampled.blend
      kind := (applySavedNodeKindValues sampled.kind live.kind).2 })

/-- The loop of `apply_saved_rack_values_to_runtime`; `none` where `expect`
panics. -/
def applySavedNodes : List (VisualNode T D) → List (VisualNode T' D') →
    Option (Bool × List (VisualNode T' D'))
  | [], live => some (true, live)
  | sampled :: rest, live =>
    match live.find? fun node => node.stableId = sampled.stableId with
    | none => none
    | some node =>
      let result := applySavedNode sampled node
      let live := live.set
        (live.findIdx fun node => node.stableId = sampled.stableId) result.2
      if result.1 then applySavedNodes rest live else some (false, live)

def applySavedRackValuesToRuntime (sampled : VisualRack T D)
    (live : VisualRack T' D') : Option (Bool × VisualRack T' D') :=
  if savedAndRuntimeRacksShareValueTopology sampled live then
    (applySavedNodes sampled.nodes live.nodes).map fun result =>
      (result.1, { live with nodes := result.2 })
  else some (false, live)

structure RackPreset where
  topologySignature : UInt64
  rack : SavedVisualRack

namespace RackPreset

def fromSaved (rack : SavedVisualRack) : RackPreset := ⟨Morph.topologySignature rack.nodes, rack⟩

def captureRuntime (rack : RuntimeVisualRack)
    (positionOfLayer : StableLayerId → Option SavedLayerPosition) :
    Except PresetError RackPreset := do
  let saved ← (rack.captureRoutes positionOfLayer).mapError .routeCapture
  return fromSaved saved

def validate (preset : RackPreset) : Except PresetError Unit :=
  refuse (maxNodesPerRack < preset.rack.nodes.length ∨
    Morph.topologySignature preset.rack.nodes ≠ preset.topologySignature)
    .rackTopologySignatureMismatch

/-- `RackPreset::apply_to_runtime`: what it returns, and the target
afterwards. -/
def applyToRuntime (preset : RackPreset) (target : RuntimeVisualRack) :
    Option (Except PresetError Unit × RuntimeVisualRack) :=
  match preset.validate with
  | .error error => some (.error error, target)
  | .ok _ =>
    (applySavedRackValuesToRuntime preset.rack target).map fun result =>
      if result.1 then (.ok (), result.2)
      else (.error .incompatibleTarget, target)

end RackPreset

section

variable (f : T → T') (g : D → D')

theorem applySavedNodeKindValues_mapRoutes (sampled live : NodeKind T D) :
    applySavedNodeKindValues (sampled.mapRoutes f g) live = applyNodeKindValues sampled live := by
  cases sampled with
  | mask sampled =>
    cases live with
    | mask live => cases sampled <;> cases live <;> rfl
    | _ => cases sampled <;> rfl
  | _ => cases live <;> rfl

theorem savedNodeMatches_mapRoutes (sampled live : NodeKind T D) :
    savedNodeMatches (sampled.mapRoutes f g) live = nodeValueTopologyMatches sampled live := by
  cases sampled with
  | mask sampled =>
    cases live with
    | mask live => cases sampled <;> cases live <;> rfl
    | _ => cases sampled <;> rfl
  | _ => cases live <;> rfl

theorem topologySignature_mapRoutes (nodes : List (VisualNode T D)) :
    topologySignature (nodes.map (VisualNode.mapRoutes f g)) = topologySignature nodes := by
  simp only [topologySignature, foldl_map, VisualNode.mapRoutes, NodeKind.tag_mapRoutes]

theorem savedRacksShare_mapRoutes (sampled live : VisualRack T D) (next : ℕ) :
    savedAndRuntimeRacksShareValueTopology
        ⟨sampled.nodes.map (VisualNode.mapRoutes f g), next⟩ live =
      racksShareValueTopology sampled live := by
  simp only [savedAndRuntimeRacksShareValueTopology, racksShareValueTopology,
    topologySignature_mapRoutes, length_map, zip_map_left, all_map,
    Function.comp_def, Prod.map, id, VisualNode.mapRoutes, savedNodeMatches_mapRoutes]
  rfl

theorem applySavedNodes_mapRoutes (sampled live : List (VisualNode T D)) :
    applySavedNodes (sampled.map (VisualNode.mapRoutes f g)) live = applyNodes sampled live := by
  induction sampled generalizing live with
  | nil => rfl
  | cons node rest ih =>
    have hnode (other : VisualNode T D) :
        applySavedNode (node.mapRoutes f g) other = applyNode node other := by
      simp only [applySavedNode, applyNode, VisualNode.mapRoutes,
        applySavedNodeKindValues_mapRoutes]
    rw [map_cons, applySavedNodes, applyNodes, writeEach]
    have hid : (node.mapRoutes f g).stableId = node.stableId := rfl
    simp only [hnode, ih, hid]
    cases live.find? fun item => item.stableId = node.stableId with
    | none | some item => rfl

theorem applySavedRackValues_mapRoutes (sampled live : VisualRack T D) (next : ℕ) :
    applySavedRackValuesToRuntime ⟨sampled.nodes.map (VisualNode.mapRoutes f g), next⟩ live =
      applyRackValues sampled live := by
  simp only [applySavedRackValuesToRuntime, applyRackValues,
    savedRacksShare_mapRoutes, applySavedNodes_mapRoutes]

end

/-- The same identities and kinds in the same order. -/
def RacksAlike (source target : RuntimeVisualRack) : Prop :=
  List.Forall₂ NodesAlike source.nodes target.nodes

theorem topologySignature_congr {a b : List (VisualNode T D)} (h : List.Forall₂ NodesAlike a b) :
    topologySignature a = topologySignature b := by
  have hfold (hash : UInt64) : a.foldl (fun hash node =>
        signatureStep (signatureStep hash node.stableId.val) (signatureCode node.kind.tag)) hash =
      b.foldl (fun hash node =>
        signatureStep (signatureStep hash node.stableId.val)
          (signatureCode node.kind.tag)) hash := by
    induction h generalizing hash with
    | nil => rfl
    | cons hhead _ ih =>
      rw [foldl_cons, foldl_cons, hhead.1, nodeValueTopologyMatches_tag hhead.2]
      exact ih _
  exact hfold fnvOffset

theorem racksShareValueTopology_iff {source target : RuntimeVisualRack} :
    racksShareValueTopology source target = true ↔ RacksAlike source target := by
  constructor
  · exact forall₂_nodesAlike
  · intro h
    have hzip := forall₂_iff_zip.mp h
    simp only [racksShareValueTopology, Bool.and_eq_true, decide_eq_true_eq, all_eq_true]
    exact ⟨⟨topologySignature_congr h, hzip.1⟩, fun _ hmem => hzip.2 hmem⟩

/-- The cursor of a rack is not exhausted, or the last identity is in use. -/
def CursorAdmitted (rack : RuntimeVisualRack) : Prop :=
  rack.nextNodeId ≠ 0 ∨ VisualRack.greatestNodeId rack.nodes = u64Max

def captureAndApply (positionOfLayer : StableLayerId → Option SavedLayerPosition)
    (source target : RuntimeVisualRack) :
    Option (Except PresetError Unit × RuntimeVisualRack) :=
  match RackPreset.captureRuntime source positionOfLayer with
  | .error error => some (.error error, target)
  | .ok preset => preset.applyToRuntime target

section

variable {positionOfLayer : StableLayerId → Option SavedLayerPosition}
  {source target : RuntimeVisualRack}

open RackPreset

theorem captureRuntime_spec (positionOfLayer : StableLayerId → Option SavedLayerPosition)
    (hsource : RackInvariant source) :
    (CursorAdmitted source ∧
      RackPreset.captureRuntime source positionOfLayer =
        .ok (.fromSaved (source.captured positionOfLayer))) ∨
    (¬CursorAdmitted source ∧ ∃ error,
      RackPreset.captureRuntime source positionOfLayer = .error error) := by
  unfold captureRuntime
  cases hcap : source.captureRoutes positionOfLayer with
  | error error =>
    refine .inr ⟨?_, _, rfl⟩
    intro hcur
    have hok : source.captureRoutes positionOfLayer = .ok (source.captured positionOfLayer) :=
      hsource.captureRoutes_ok.mpr ⟨hcur, rfl⟩
    cases hcap.symm.trans hok
  | ok saved =>
    obtain ⟨hcur, rfl⟩ := hsource.captureRoutes_ok.mp hcap
    exact .inl ⟨hcur, rfl⟩

theorem validate_fromSaved (hsource : RackInvariant source) :
    (RackPreset.fromSaved (source.captured positionOfLayer)).validate = .ok () := by
  have hlen := hsource.length_le
  simp only [validate, fromSaved, VisualRack.captured,
    length_map, ne_eq, not_true_eq_false, or_false, refuse_ok]
  exact Nat.not_lt.mpr hlen

variable (positionOfLayer : StableLayerId → Option SavedLayerPosition)
  (hsource : RackInvariant source) (htarget : DistinctNodes target)
include hsource htarget

theorem applyToRuntime_fromSaved :
    ∃ result after,
      (RackPreset.fromSaved (source.captured positionOfLayer)).applyToRuntime
        target = some (result, after) ∧
      ((RacksAlike source target ∧ NoStudy target ∧ result = .ok () ∧
          RackWritten source target after) ∨
        (¬(RacksAlike source target ∧ NoStudy target) ∧
          (∃ error, result = .error error) ∧ after = target)) := by
  have hwriter : applySavedRackValuesToRuntime
      (source.captured positionOfLayer) target = applyRackValues source target :=
    applySavedRackValues_mapRoutes _ _ source target source.nextNodeId
  unfold applyToRuntime
  rw [validate_fromSaved hsource]
  dsimp only [fromSaved]
  rw [hwriter]
  by_cases halike : RacksAlike source target
  · obtain ⟨done, after, happ, hdone, hwrit⟩ := applyRackValues_spec
      (racksShareValueTopology_iff.mpr halike) htarget
    rw [happ]
    by_cases hstudy : NoStudy target
    · obtain rfl := hdone.mpr hstudy
      exact ⟨.ok (), after, rfl, .inl ⟨halike, hstudy, rfl,
        hwrit.mpr (agreeFromStudy_of_no_study hstudy)⟩⟩
    · have hstop : done = false := Bool.not_eq_true _ ▸ mt hdone.mp hstudy
      subst hstop
      exact ⟨_, _, rfl, .inr ⟨fun h => hstudy h.2, ⟨_, rfl⟩, rfl⟩⟩
  · have hgate : racksShareValueTopology source target = false :=
      Bool.not_eq_true _ ▸ mt racksShareValueTopology_iff.mp halike
    rw [applyRackValues, if_neg (by rw [hgate]; exact Bool.false_ne_true)]
    exact ⟨_, _, rfl, .inr ⟨fun h => halike h.1, ⟨_, rfl⟩, rfl⟩⟩

theorem captureAndApply_spec :
    ∃ result after,
      captureAndApply positionOfLayer source target = some (result, after) ∧
      ((RacksAlike source target ∧ (CursorAdmitted source ∧ NoStudy target) ∧
          result = .ok () ∧ RackWritten source target after) ∨
        (¬(RacksAlike source target ∧ CursorAdmitted source ∧ NoStudy target) ∧
          (∃ error, result = .error error) ∧ after = target)) := by
  unfold captureAndApply
  rcases captureRuntime_spec positionOfLayer hsource with ⟨hcur, hcap⟩ | ⟨hcur, error, hcap⟩
  · rw [hcap]
    obtain ⟨result, after, happ, hcases⟩ := applyToRuntime_fromSaved positionOfLayer hsource htarget
    refine ⟨result, after, happ, ?_⟩
    rcases hcases with ⟨halike, hstudy, hres, hwrit⟩ | ⟨hnot, href⟩
    · exact .inl ⟨halike, ⟨hcur, hstudy⟩, hres, hwrit⟩
    · exact .inr ⟨fun h => hnot ⟨h.1, h.2.2⟩, href⟩
  · rw [hcap]
    exact ⟨_, _, rfl, .inr ⟨fun h => hcur h.2.1, ⟨_, rfl⟩, rfl⟩⟩

end

/-- `PartialEq` of two transforms. -/
def transformsEqual (a b : SpatialTransform) : Bool :=
  a.position.x.eq b.position.x && a.position.y.eq b.position.y &&
    a.scale.x.eq b.scale.x && a.scale.y.eq b.scale.y &&
    a.anchor.x.eq b.anchor.x && a.anchor.y.eq b.anchor.y &&
    a.rotationDeg.eq b.rotationDeg && a.skewDeg.eq b.skewDeg &&
    a.skewAxisDeg.eq b.skewAxisDeg && decide (a.fit = b.fit) &&
    a.crop.x.eq b.crop.x && a.crop.y.eq b.crop.y &&
    a.crop.z.eq b.crop.z && a.crop.w.eq b.crop.w &&
    decide (a.edge = b.edge) && decide (a.sampling = b.sampling)

def ensureCanonicalTransform (transform : SpatialTransform) : Except PresetError Unit :=
  refuse (transformsEqual transform transform.sanitized = false) .nonCanonicalTransform

structure MattePreset where
  enabled : Bool
  channel : MatteChannel
  invert : Bool
  (amount threshold softness : F32)

namespace MattePreset

/-- `MattePreset::sanitized`: the bounds of a layer's matte. -/
def sanitized (matte : MattePreset) : MattePreset where
  enabled := matte.enabled
  channel := matte.channel
  invert := matte.invert
  amount := finiteClamp matte.amount 1 0 1
  threshold := finiteClamp matte.threshold 0.5 0 1
  softness := finiteClamp matte.softness 0.1 0 1

/-- `PartialEq` of two mattes. -/
def equal (a b : MattePreset) : Bool :=
  a.enabled == b.enabled && decide (a.channel = b.channel) &&
    a.invert == b.invert && a.amount.eq b.amount &&
    a.threshold.eq b.threshold && a.softness.eq b.softness

/-- The matte of a group, as a capture takes it. -/
def ofMatte (matte : ImageMatte T) : MattePreset where
  enabled := true
  channel := matte.channel
  invert := matte.invert
  amount := matte.amount
  threshold := matte.threshold
  softness := matte.softness

def write (values : MattePreset) (matte : ImageMatte T) : ImageMatte T where
  tap := matte.tap
  channel := values.channel
  invert := values.invert
  amount := values.amount
  threshold := values.threshold
  softness := values.softness

end MattePreset

def groupTopologySignature (rack : UInt64) (mattePresent : Bool) : UInt64 :=
  (leBytes 8 rack.toNat ++ [mattePresent.toUInt8]).foldl
    (fun hash byte => (hash ^^^ byte.toUInt64) * fnvPrime) fnvOffset

structure GroupPreset where
  topologySignature : UInt64
  opacity : F32
  transform : SpatialTransform
  rack : RackPreset
  matte : Option MattePreset
  (solo bypass : Bool)
  bus : BusAssignment

namespace GroupPreset

def ofBody (body : GroupBody T D) (rack : RackPreset) : GroupPreset where
  topologySignature := groupTopologySignature rack.topologySignature body.matte.isSome
  opacity := body.opacity
  transform := body.transform
  rack
  matte := body.matte.map .ofMatte
  solo := body.solo
  bypass := body.bypass
  bus := body.bus

def captureRuntime (group : LiveGroup)
    (positionOfLayer : StableLayerId → Option SavedLayerPosition) :
    Except PresetError GroupPreset := do
  let rack ← RackPreset.captureRuntime group.body.rack positionOfLayer
  return ofBody group.body rack

def validate (preset : GroupPreset) : Except PresetError Unit := do
  preset.rack.validate
  ensureCanonicalTransform preset.transform
  refuse (preset.opacity.isFinite = false ∨
    ¬(F32.le 0 preset.opacity ∧ F32.le preset.opacity 1)) .incompatibleTarget
  refuse (preset.topologySignature ≠ groupTopologySignature
    preset.rack.topologySignature preset.matte.isSome)
    .groupTopologySignatureMismatch
  refuse (∃ matte ∈ preset.matte,
    matte.enabled = false ∨ matte.equal matte.sanitized = false)
    .incompatibleTarget

def applyToRuntime (preset : GroupPreset) (target : LiveGroup) :
    Option (Except PresetError Unit × LiveGroup) :=
  match preset.validate with
  | .error error => some (.error error, target)
  | .ok _ =>
    if preset.matte.isSome ≠ target.body.matte.isSome then some (.error .incompatibleTarget, target)
    else
      (preset.rack.applyToRuntime target.body.rack).map fun result =>
        match result.1 with
        | .error error => (.error error, target)
        | .ok _ =>
          (.ok (), { target with
            body := { target.body with
              opacity := preset.opacity
              transform := preset.transform
              rack := result.2
              matte :=
                match preset.matte, target.body.matte with
                | some values, some matte => some (values.sanitized.write matte)
                | _, matte => matte
              solo := preset.solo
              bypass := preset.bypass
              bus := preset.bus } })

end GroupPreset

variable {value : F32}

theorem eq_self_of_isFinite (h : value.isFinite) : value.eq value = true := by
  simp [F32.eq, F32.isNan_of_isFinite h]

theorem isFinite_of_clamped {fallback low high : F32} (hrng : F32.isRange fallback low high)
    (h : finiteClamp value fallback low high = value) : value.isFinite := by
  have hwith := F32.finiteClamp_within hrng value
  rw [h] at hwith
  simp only [F32.isRange, Bool.and_eq_true] at hrng
  exact F32.isFinite_of_le hrng.1.1.1 hrng.1.1.2 hwith.1 hwith.2

theorem isFinite_of_wrapped (h : wrapDegrees value = value) : value.isFinite := by
  rw [← h]
  exact (isWrapped_wrapDegrees value).finite

theorem isFinite_of_opposite {near : F32}
    (h : SpatialTransform.sanitizedOpposite value near = value) :
    value.isFinite := by
  have hcrop := (SpatialTransform.sanitizedCrop_min
    (SpatialTransform.sanitizedCrop_sanitizedCrop value)
    (SpatialTransform.sanitizedCrop_rest near)).1
  change SpatialTransform.sanitizedCrop
    (SpatialTransform.sanitizedOpposite value near) =
      SpatialTransform.sanitizedOpposite value near at hcrop
  rw [h] at hcrop
  exact isFinite_of_clamped SpatialTransform.isRange_crop hcrop

theorem ensureCanonicalTransform_ok {transform : SpatialTransform}
    (h : transform.sanitized = transform) :
    ensureCanonicalTransform transform = .ok () := by
  have hself : transformsEqual transform transform = true := by
    obtain ⟨⟨px, py⟩, ⟨sx, sy⟩, ⟨ax, ay⟩, rotation, skew, axis, fitMode,
      ⟨cx, cy, cz, cw⟩, edge, sampling⟩ := transform
    simp only [SpatialTransform.sanitized, Vec2.map, SpatialTransform.mk.injEq,
      Vec2.mk.injEq, Vec4.mk.injEq] at h
    obtain ⟨⟨hpx, hpy⟩, ⟨hsx, hsy⟩, ⟨hax, hay⟩, hrotation, hskew, haxis, -,
      ⟨hcx, hcy, hcz, hcw⟩, -, -⟩ := h
    have hunit {v fallback low high : F32} (hv : finiteClamp v fallback low high = v)
        (hrng : F32.isRange fallback low high) : v.eq v = true :=
      eq_self_of_isFinite (isFinite_of_clamped hrng hv)
    have hangle {v : F32} (hv : wrapDegrees v = v) : v.eq v = true :=
      eq_self_of_isFinite (isFinite_of_wrapped hv)
    simp only [transformsEqual, Bool.and_eq_true, decide_true, and_true]
    refine ⟨⟨⟨⟨⟨⟨⟨⟨⟨⟨⟨⟨?_, ?_⟩, ?_⟩, ?_⟩, ?_⟩, ?_⟩, ?_⟩, ?_⟩, ?_⟩, ?_⟩, ?_⟩, ?_⟩, ?_⟩
    · exact hunit hpx (by decide +kernel)
    · exact hunit hpy (by decide +kernel)
    · exact hunit hsx (by decide +kernel)
    · exact hunit hsy (by decide +kernel)
    · exact hunit hax (by decide +kernel)
    · exact hunit hay (by decide +kernel)
    · exact hangle hrotation
    · exact hunit hskew (by decide +kernel)
    · exact hangle haxis
    · exact hunit hcx SpatialTransform.isRange_crop
    · exact hunit hcy SpatialTransform.isRange_crop
    · exact eq_self_of_isFinite (isFinite_of_opposite hcz)
    · exact eq_self_of_isFinite (isFinite_of_opposite hcw)
  rw [ensureCanonicalTransform, h, hself, refuse_ok]
  exact Bool.noConfusion

theorem clamp_of_clamp_half (h : finiteClamp value 0.1 0 0.5 = value) :
    finiteClamp value 0.1 0 1 = value := by
  have hwith := F32.finiteClamp_within (by decide +kernel : F32.isRange 0.1 0 0.5) value
  rw [h] at hwith
  refine F32.finiteClamp_of_le (by decide +kernel) hwith.1 ?_
  have hhalf : (0.5 : F32).key ≤ (1 : F32).key := by decide +kernel
  have hone : (1 : F32).isNan = false := by decide +kernel
  simp only [F32.le, Bool.and_eq_true, decide_eq_true_eq, Bool.not_eq_true'] at hwith ⊢
  exact ⟨⟨hwith.2.1.1, hone⟩, hwith.2.2.trans hhalf⟩

theorem MattePreset.sanitized_ofMatte {matte : ImageMatte T} (h : matte.sanitized = matte) :
    (MattePreset.ofMatte matte).sanitized = .ofMatte matte ∧
      (MattePreset.ofMatte matte).equal (.ofMatte matte) = true := by
  have hamount : finiteClamp matte.amount 1 0 1 = matte.amount := congrArg ImageMatte.amount h
  have hthr : finiteClamp matte.threshold 0.5 0 1 = matte.threshold :=
    congrArg ImageMatte.threshold h
  have hsoftness : finiteClamp matte.softness 0.1 0 1 = matte.softness :=
    clamp_of_clamp_half (congrArg ImageMatte.softness h)
  constructor
  · simp only [sanitized, ofMatte, hamount, hthr, hsoftness]
  · have hamountSelf := eq_self_of_isFinite (isFinite_of_clamped (by decide +kernel) hamount)
    have hthresholdSelf := eq_self_of_isFinite (isFinite_of_clamped (by decide +kernel) hthr)
    have hsoftnessSelf := eq_self_of_isFinite (isFinite_of_clamped (by decide +kernel) hsoftness)
    simp [equal, ofMatte, hamountSelf, hthresholdSelf, hsoftnessSelf]

structure GroupInvariant (group : LiveGroup) : Prop where
  rack : RackInvariant group.body.rack
  bounded : group.body.sanitized = group.body

def GroupsCompatible (source target : LiveGroup) : Prop :=
  RacksAlike source.body.rack target.body.rack ∧ source.body.matte.isSome = target.body.matte.isSome

/-- The values of the source under the routes of the target. -/
structure GroupWritten (source target after : LiveGroup) : Prop where
  id : after.id = target.id
  name : after.body.name = target.body.name
  members : after.members = target.members
  opacity : after.body.opacity = source.body.opacity
  transform : after.body.transform = source.body.transform
  rack : RackWritten source.body.rack target.body.rack after.body.rack
  matte : after.body.matte = match source.body.matte, target.body.matte with
    | some values, some matte => some ((MattePreset.ofMatte values).write matte)
    | _, matte => matte
  solo : after.body.solo = source.body.solo
  bypass : after.body.bypass = source.body.bypass
  bus : after.body.bus = source.body.bus

def captureAndApplyGroup (positionOfLayer : StableLayerId → Option SavedLayerPosition)
    (source target : LiveGroup) :
    Option (Except PresetError Unit × LiveGroup) :=
  match GroupPreset.captureRuntime source positionOfLayer with
  | .error error => some (.error error, target)
  | .ok preset => preset.applyToRuntime target

section

variable {positionOfLayer : StableLayerId → Option SavedLayerPosition} {source target : LiveGroup}

theorem GroupInvariant.matte (hsource : GroupInvariant source) {matte : ImageMatte ResolvedImageTap}
    (hmatte : source.body.matte = some matte) : matte.sanitized = matte := by
  have hall : source.body.matte.map ImageMatte.sanitized =
      source.body.matte := congrArg GroupBody.matte hsource.bounded
  rw [hmatte] at hall
  exact Option.some.inj hall

theorem writtenMatte_eq (hsource : GroupInvariant source) :
    (match source.body.matte.map MattePreset.ofMatte, target.body.matte with
      | some values, some matte => some (values.sanitized.write matte)
      | _, matte => matte) =
    match source.body.matte, target.body.matte with
      | some values, some matte => some ((MattePreset.ofMatte values).write matte)
      | _, matte => matte := by
  cases hmatte : source.body.matte with
  | none => rfl
  | some matte =>
    cases target.body.matte with
    | none => rfl
    | some live => simp [(MattePreset.sanitized_ofMatte (hsource.matte hmatte)).1]

open GroupPreset

theorem validate_ofBody (hsource : GroupInvariant source) :
    (GroupPreset.ofBody source.body (.fromSaved
      (source.body.rack.captured positionOfLayer))).validate = .ok () := by
  have hopac : finiteClamp source.body.opacity 1 0 1 = source.body.opacity :=
    congrArg GroupBody.opacity hsource.bounded
  have hunit := F32.finiteClamp_within (by decide +kernel : F32.isRange 1 0 1) source.body.opacity
  rw [hopac] at hunit
  have hfin := isFinite_of_clamped (by decide +kernel) hopac
  simp only [validate, bind_ok, exists_unit, refuse_ok]
  refine ⟨validate_fromSaved hsource.rack, ensureCanonicalTransform_ok
    (congrArg GroupBody.transform hsource.bounded), ?_, ?_, ?_⟩
  · rintro (hinfinite | hout)
    · cases hinfinite.symm.trans hfin
    · exact hout hunit
  · simp [ofBody]
  · rintro ⟨values, hvalues, hbad⟩
    obtain ⟨matte, hmatte, rfl⟩ := Option.mem_map.mp hvalues
    obtain ⟨hsame, hequal⟩ := MattePreset.sanitized_ofMatte (hsource.matte hmatte)
    rcases hbad with hoff | hdiffers
    · cases hoff
    · rw [hsame, hequal] at hdiffers
      cases hdiffers

theorem captureAndApplyGroup_spec (positionOfLayer : StableLayerId → Option SavedLayerPosition)
    (hsource : GroupInvariant source) (htarget : DistinctNodes target.body.rack) :
    ∃ result after,
      captureAndApplyGroup positionOfLayer source target = some (result, after) ∧
      ((GroupsCompatible source target ∧
          (CursorAdmitted source.body.rack ∧ NoStudy target.body.rack) ∧
          result = .ok () ∧ GroupWritten source target after) ∨
        (¬(GroupsCompatible source target ∧
            CursorAdmitted source.body.rack ∧ NoStudy target.body.rack) ∧
          (∃ error, result = .error error) ∧ after = target)) := by
  unfold captureAndApplyGroup captureRuntime
  have hracks : RackInvariant source.body.rack := hsource.rack
  rcases captureRuntime_spec positionOfLayer hracks with ⟨hcur, hcap⟩ | ⟨hcur, error, hcap⟩
  · rw [hcap]
    change ∃ result after, (ofBody source.body (.fromSaved
      (source.body.rack.captured positionOfLayer))).applyToRuntime target = some (result, after) ∧ _
    have hsome : (ofBody source.body (.fromSaved
        (source.body.rack.captured positionOfLayer))).matte.isSome =
          source.body.matte.isSome := Option.isSome_map
    rw [applyToRuntime, validate_ofBody hsource]
    dsimp only
    by_cases hmatte : source.body.matte.isSome = target.body.matte.isSome
    · rw [if_neg (not_not.mpr (hsome.trans hmatte))]
      dsimp only [ofBody]
      obtain ⟨result, rack, happ, hcases⟩ := applyToRuntime_fromSaved positionOfLayer hracks htarget
      rw [happ]
      rcases hcases with ⟨halike, hstudy, rfl, hwrit⟩ | ⟨hnot, ⟨error, rfl⟩, -⟩
      · refine ⟨_, _, rfl, .inl ⟨⟨halike, hmatte⟩, ⟨hcur, hstudy⟩, rfl,
          rfl, rfl, rfl, rfl, rfl, hwrit, ?_, rfl, rfl, rfl⟩⟩
        exact writtenMatte_eq hsource
      · exact ⟨_, _, rfl, Or.inr ⟨fun h => hnot ⟨h.1.1, h.2.2⟩, ⟨error, rfl⟩, rfl⟩⟩
    · rw [if_pos (hsome ▸ hmatte)]
      exact ⟨_, _, rfl, .inr ⟨fun h => hmatte h.1.2, ⟨_, rfl⟩, rfl⟩⟩
  · rw [hcap]
    exact ⟨_, _, rfl, .inr ⟨fun h => hcur h.2.1, ⟨_, rfl⟩, rfl⟩⟩

end

end CollideOScope.Preset
