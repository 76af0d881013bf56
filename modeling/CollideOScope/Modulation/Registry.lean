import CollideOScope.Composition.NodeKinds
import CollideOScope.Support.Rounding
import CollideOScope.Support.Segments

/-!
# The registry of node parameters

Every parameter of every node kind has an entry in one registry.  A modulation
target names an entry by its position in the registry, and on the wire by the
key of the entry and a component.  Kinds share keys, and a key is read back as
its first modulatable entry.
-/

namespace CollideOScope.Modulation

open Composition

inductive NodeParamType
  | bool | float | unsigned | enumeration | vec2 | color | imageTap
  | motionDonor
  deriving DecidableEq

structure NodeParamDescriptor where
  kind : NodeKindTag
  key : String
  valueType : NodeParamType
  range : Option (F32 × F32)
  modulatable : Bool

/-- `float_param!`. -/
def floatParam (kind : NodeKindTag) (key : String) (low high : F32) : NodeParamDescriptor :=
  ⟨kind, key, .float, some (low, high), true⟩

def transformParams : List NodeParamDescriptor :=
  [ ⟨.transform, "position", .vec2, some (-4, 4), true⟩,
    ⟨.transform, "scale", .vec2, some (-16, 16), true⟩,
    ⟨.transform, "anchor", .vec2, some (-2, 3), true⟩,
    floatParam .transform "rotation_deg" (-180) 180,
    floatParam .transform "skew_deg" (-89) 89,
    floatParam .transform "skew_axis_deg" (-180) 180,
    ⟨.transform, "fit_mode", .enumeration, none, false⟩,
    floatParam .transform "crop_left" 0 1,
    floatParam .transform "crop_top" 0 1,
    floatParam .transform "crop_right" 0 1,
    floatParam .transform "crop_bottom" 0 1,
    ⟨.transform, "edge_mode", .enumeration, none, false⟩,
    ⟨.transform, "sampling", .enumeration, none, false⟩ ]

def digitalColorParams : List NodeParamDescriptor :=
  [ floatParam .digitalColor "pixelate_size" 1 32, floatParam .digitalColor "rgb_split" 0 30,
    floatParam .digitalColor "downsample" 0.05 1,
    floatParam .digitalColor "hue_shift" (-180) 180,
    floatParam .digitalColor "saturation" (-1) 1,
    floatParam .digitalColor "brightness" (-1) 1,
    floatParam .digitalColor "contrast" (-1) 1,
    floatParam .digitalColor "posterize" 0 16,
    floatParam .digitalColor "invert" 0 1,
    floatParam .digitalColor "vignette" 0 1.5,
    floatParam .digitalColor "color_drift" 0 0.02 ]

def keyParams : List NodeParamDescriptor :=
  [ ⟨.key, "mode", .enumeration, none, false⟩, floatParam .key "threshold" 0 1,
    floatParam .key "softness" 0 0.5,
    ⟨.key, "color", .color, some (0, 1), true⟩,
    floatParam .key "tolerance" 0 1,
    ⟨.key, "invert", .bool, none, false⟩ ]

def cellularParams : List NodeParamDescriptor :=
  [ floatParam .cellular "amount" 0 1, floatParam .cellular "scale" 2 32,
    floatParam .cellular "warp" 0 1,
    floatParam .cellular "speed" 0 2,
    floatParam .cellular "gap_amount" 0 1,
    floatParam .cellular "gap_threshold" 0 1,
    floatParam .cellular "gap_softness" 0 0.5,
    ⟨.cellular, "seed", .unsigned, none, false⟩ ]

def shiftParams : List NodeParamDescriptor :=
  [ floatParam .shift "amount" 0 1, floatParam .shift "block_size" 2 256,
    floatParam .shift "density" 0 1,
    floatParam .shift "speed" 0 20,
    ⟨.shift, "seed", .unsigned, none, false⟩ ]

def grainParams : List NodeParamDescriptor :=
  [ floatParam .grain "intensity" 0 0.3, floatParam .grain "size" 1 4,
    ⟨.grain, "algorithm", .enumeration, none, false⟩,
    ⟨.grain, "color", .bool, none, false⟩,
    ⟨.grain, "seed", .unsigned, none, false⟩ ]

def maskParams : List NodeParamDescriptor :=
  [ ⟨.mask, "variant", .enumeration, none, false⟩,
    ⟨.mask, "rectangle_center", .vec2, some (-2, 3), true⟩,
    ⟨.mask, "rectangle_size", .vec2, some (0, 4), true⟩,
    floatParam .mask "rectangle_rotation_deg" (-180) 180,
    floatParam .mask "rectangle_feather" 0 1,
    ⟨.mask, "rectangle_invert", .bool, none, false⟩,
    ⟨.mask, "ellipse_center", .vec2, some (-2, 3), true⟩,
    ⟨.mask, "ellipse_radii", .vec2, some (0, 2), true⟩,
    floatParam .mask "ellipse_rotation_deg" (-180) 180,
    floatParam .mask "ellipse_feather" 0 1,
    ⟨.mask, "ellipse_invert", .bool, none, false⟩,
    ⟨.mask, "image_tap", .imageTap, none, false⟩,
    ⟨.mask, "image_channel", .enumeration, none, false⟩,
    ⟨.mask, "image_invert", .bool, none, false⟩,
    floatParam .mask "image_amount" 0 1,
    floatParam .mask "image_threshold" 0 1,
    floatParam .mask "image_softness" 0 0.5 ]

def displaceParams : List NodeParamDescriptor :=
  [ ⟨.displace, "donor_tap", .imageTap, none, false⟩, floatParam .displace "amount_x" (-1) 1,
    floatParam .displace "amount_y" (-1) 1,
    ⟨.displace, "boundary", .enumeration, none, false⟩ ]

def symmetryParams : List NodeParamDescriptor :=
  [ ⟨.symmetry, "symmetry_mode", .enumeration, none, false⟩,
    ⟨.symmetry, "symmetry_boundary", .enumeration, none, false⟩,
    ⟨.symmetry, "symmetry_seed", .unsigned, none, false⟩,
    ⟨.symmetry, "symmetry_donor0_tap", .imageTap, none, false⟩,
    ⟨.symmetry, "symmetry_donor1_tap", .imageTap, none, false⟩,
    ⟨.symmetry, "symmetry_motion0_donor", .motionDonor, none, false⟩,
    ⟨.symmetry, "symmetry_motion1_donor", .motionDonor, none, false⟩,
    ⟨.symmetry, "symmetry_source_carrier", .bool, none, false⟩,
    ⟨.symmetry, "symmetry_source_donor0", .bool, none, false⟩,
    ⟨.symmetry, "symmetry_source_donor1", .bool, none, false⟩,
    ⟨.symmetry, "symmetry_source_history", .bool, none, false⟩,
    ⟨.symmetry, "symmetry_motion_slot0", .bool, none, false⟩,
    ⟨.symmetry, "symmetry_motion_slot1", .bool, none, false⟩,
    floatParam .symmetry "symmetry_base_folds" 1 32,
    floatParam .symmetry "symmetry_fold_offset" (-32) 32,
    floatParam .symmetry "symmetry_radial_phase_deg" (-180) 180,
    floatParam .symmetry "symmetry_orbit_phase" (-1) 1,
    floatParam .symmetry "symmetry_planar_axis_deg" (-180) 180,
    floatParam .symmetry "symmetry_planar_phase" (-4) 4,
    floatParam .symmetry "symmetry_cell_skew" (-1) 1,
    floatParam .symmetry "symmetry_spiral_scale" (-1) 1,
    floatParam .symmetry "symmetry_orbit_radius" 0 1,
    floatParam .symmetry "symmetry_orbit_spin_deg" (-180) 180,
    floatParam .symmetry "symmetry_motion_gain" (-1) 1,
    floatParam .symmetry "symmetry_hue_span" 0 1,
    ⟨.symmetry, "symmetry_center", .vec2, some (-1, 2), true⟩ ]

def residualParams : List NodeParamDescriptor :=
  [ ⟨.residual, "structure_tap", .imageTap, none, false⟩,
    ⟨.residual, "detail_tap", .imageTap, none, false⟩,
    floatParam .residual "mix" 0 1,
    floatParam .residual "detail_gain" 0 4,
    ⟨.residual, "block", .enumeration, none, false⟩,
    ⟨.residual, "quantization", .enumeration, none, false⟩,
    ⟨.residual, "seed", .unsigned, none, false⟩ ]

def scanProcessorParams : List NodeParamDescriptor :=
  [ ⟨.scanProcessor, "scan_lines", .unsigned, some (16, 1080), false⟩,
    ⟨.scanProcessor, "scan_samples", .unsigned, some (64, 512), false⟩,
    ⟨.scanProcessor, "scan_reverse_h", .bool, none, false⟩,
    ⟨.scanProcessor, "scan_reverse_v", .bool, none, false⟩,
    floatParam .scanProcessor "scan_amount" 0 1,
    floatParam .scanProcessor "scan_ribbon_width" 0 1,
    floatParam .scanProcessor "scan_velocity_mix" 0 1,
    floatParam .scanProcessor "scan_tilt_x" (-1) 1,
    floatParam .scanProcessor "scan_tilt_y" (-1) 1,
    floatParam .scanProcessor "scan_perspective" 0 1,
    floatParam .scanProcessor "scan_s_curve" (-1) 1,
    floatParam .scanProcessor "scan_skew" (-1) 1,
    floatParam .scanProcessor "scan_collapse" 0 1,
    floatParam .scanProcessor "scan_osc_amount" 0 1,
    floatParam .scanProcessor "scan_osc_freq" 0 1,
    floatParam .scanProcessor "scan_osc_lock" 0 1,
    floatParam .scanProcessor "scan_lissajous" 0 1,
    floatParam .scanProcessor "scan_mono" 0 1,
    floatParam .scanProcessor "scan_hue" 0 1 ]

def blockDctParams : List NodeParamDescriptor :=
  [ floatParam .blockDct "dct_amount" 0 1, floatParam .blockDct "dct_quantize" 0 1,
    floatParam .blockDct "dct_hf_penalty" 0 1,
    floatParam .blockDct "dct_chroma_crush" 0 1,
    floatParam .blockDct "dct_block" 0 1 ]

def pixelSortParams : List NodeParamDescriptor :=
  [ floatParam .pixelSort "sort_amount" 0 1, floatParam .pixelSort "sort_threshold" 0 1 ]

def avalancheParams : List NodeParamDescriptor :=
  [ floatParam .avalanche "avalanche_amount" 0 1, floatParam .avalanche "avalanche_run" 0 1,
    ⟨.avalanche, "avalanche_axis", .enumeration, none, false⟩ ]

/-- `NODE_PARAM_DESCRIPTORS`: the parameters of every kind, in order. -/
def nodeParamDescriptors : List NodeParamDescriptor :=
  transformParams ++ digitalColorParams ++ keyParams ++ cellularParams ++
    shiftParams ++ grainParams ++ maskParams ++ displaceParams ++
    symmetryParams ++ residualParams ++ scanProcessorParams ++
    blockDctParams ++ pixelSortParams ++ avalancheParams

/-- The component of a value that a target addresses. -/
inductive StableModComponent
  | scalar | x | y | red | green | blue
  deriving DecidableEq

namespace StableModComponent

def suffix : StableModComponent → String
  | scalar => ""
  | x => ".x"
  | y => ".y"
  | red => ".r"
  | green => ".g"
  | blue => ".b"

def letter : StableModComponent → Option String
  | scalar => none
  | x => some "x"
  | y => some "y"
  | red => some "r"
  | green => some "g"
  | blue => some "b"

end StableModComponent

/-- The components a value of a type has; other types have no address. -/
def NodeParamType.components : NodeParamType → List StableModComponent
  | float => [.scalar]
  | vec2 => [.x, .y]
  | color => [.red, .green, .blue]
  | _ => []

/-- The match of `parse` on a type and the text after the last dot. -/
def NodeParamType.component : NodeParamType → Option String → Option StableModComponent
  | float, none => some .scalar
  | vec2, some "x" => some .x
  | vec2, some "y" => some .y
  | color, some "r" => some .red
  | color, some "g" => some .green
  | color, some "b" => some .blue
  | _, _ => none

/-- A modulatable parameter; the index is a position in the registry. -/
inductive StableNodeParameter
  | wet
  | descriptor (index : ℕ) (component : StableModComponent)
  deriving DecidableEq

def firstModulatable (key : String) : Option (NodeParamDescriptor × ℕ) :=
  nodeParamDescriptors.zipIdx.find? fun entry => entry.1.key = key && entry.1.modulatable

/-- `u16::try_from`. -/
def tryFromU16 (n : ℕ) : Option ℕ := checkedWord 16 n

namespace StableNodeParameter

def parse (value : String) : Option StableNodeParameter :=
  if value = "wet" then some .wet
  else do
    let split := rsplitOnce '.' value.toList
    let key := split.elim value fun split => .ofList split.1
    let letter := split.map fun split => String.ofList split.2
    let entry ← firstModulatable key
    let component ← entry.1.valueType.component letter
    let index ← tryFromU16 entry.2
    return .descriptor index component

/-- `StableNodeParameter::descriptor`. -/
def descriptor? : StableNodeParameter → Option NodeParamDescriptor
  | wet => none
  | descriptor index _ => nodeParamDescriptors[index]?

def range (parameter : StableNodeParameter) : F32 × F32 :=
  (parameter.descriptor?.bind NodeParamDescriptor.range).getD (0, 1)

def isValidForKind (parameter : StableNodeParameter) (kind : NodeKindTag) : Bool :=
  match parameter with
  | wet => decide (kind ≠ .legacyCanonical ∧ kind ≠ .legacyTemporal)
  | descriptor index _ =>
    (nodeParamDescriptors[index]?).any fun entry => decide (entry.kind = kind) && entry.modulatable

/-- `same_wire_parameter`: the same key and component. -/
def sameWireParameter : StableNodeParameter → StableNodeParameter → Bool
  | wet, wet => true
  | descriptor left leftComponent, descriptor right rightComponent =>
    decide (leftComponent = rightComponent) &&
      match nodeParamDescriptors[left]?, nodeParamDescriptors[right]? with
      | some left, some right => decide (left.key = right.key)
      | _, _ => false
  | _, _ => false

/-- The formatter; it fails on an index outside the registry. -/
def render : StableNodeParameter → Option String
  | wet => some "wet"
  | descriptor index component =>
    (nodeParamDescriptors[index]?).map fun entry => entry.key ++ component.suffix

end StableNodeParameter

end CollideOScope.Modulation
