import CollideOScope.Modulation.AddressBook
import CollideOScope.Support.WholePart

/-!
# Routings

A routing carries a value to a target.  Its target is text: the key of a master
value, a path, or the one-based position of a layer with a suffix.  The text is
compiled when it is set.
-/

namespace CollideOScope.Modulation

open List Composition Option

/-- The keys of `TARGETS`. -/
def targetKeys : List String :=
  ["pixelate", "rgb_split", "hue_shift", "saturation", "brightness",
    "contrast", "posterize", "grain_intensity", "grain_size", "vignette",
    "color_drift", "downsample", "breathe_scale", "breathe_rotation",
    "breathe_position", "key_threshold", "key_softness", "key_color_r",
    "key_color_g", "key_color_b", "key_tolerance", "cellular_amount",
    "cellular_scale", "cellular_warp", "cellular_speed", "cellular_gap_amount",
    "cellular_gap_threshold", "cellular_gap_softness", "shift_amount",
    "shift_block_size", "shift_density", "shift_speed", "ntsc_snow",
    "ntsc_tracking_snow", "ntsc_edge_wave", "ntsc_edge_wave_speed",
    "ntsc_head_shift", "ntsc_tracking_wave", "ntsc_chroma_loss",
    "ntsc_composite_noise", "ntsc_luma_noise", "ntsc_chroma_noise",
    "ntsc_luma_smear", "ntsc_sharpening", "temporal_feedback",
    "temporal_slitscan", "temporal_fb_zoom", "temporal_fb_rotate",
    "temporal_fb_offset_x", "temporal_fb_offset_y", "temporal_fb_hue_rotate",
    "temporal_fb_saturation", "temporal_fb_gain_r", "temporal_fb_gain_g",
    "temporal_fb_gain_b", "temporal_fb_chroma_displace", "temporal_fb_blur",
    "temporal_fb_sharpen", "temporal_fb_drive", "temporal_fb_pivot",
    "temporal_fb_threshold", "temporal_fb_noise", "temporal_slit_angle",
    "temporal_key_threshold", "temporal_key_softness", "temporal_key_history",
    "temporal_loom_amount", "temporal_loom_depth", "temporal_loom_phase",
    "temporal_loom_scale", "temporal_loom_angle", "temporal_atlas_amount",
    "temporal_atlas_collision", "temporal_garden_amount",
    "temporal_garden_threshold", "temporal_garden_softness",
    "temporal_garden_decay", "temporal_long_exposure_amount",
    "display_il_amount", "display_il_twitter", "display_il_judder",
    "display_phosphor", "display_phos_r", "display_phos_g", "display_phos_b",
    "display_scanlines", "display_beam_width", "display_beam_shape",
    "display_mask_strength", "display_mask_dark", "display_bloom",
    "display_bloom_radius", "display_halation", "display_defocus",
    "display_sag", "melt_amount", "melt_width", "melt_hold", "melt_swirl",
    "melt_chroma", "melt_creep", "mosh_amount", "mosh_key_removal",
    "mosh_hold", "mosh_drop", "mosh_shuffle", "mosh_rate",
    "mosh_bitrate_starve", "mosh_resync", "mosh_wipe", "mosh_smear",
    "mosh_trail", "sync_amount", "sync_rate", "sync_spread", "sync_bias",
    "position_x", "position_y", "scale_x", "scale_y", "anchor_x", "anchor_y",
    "rotation_deg", "skew_deg", "skew_axis_deg", "crop_left", "crop_top",
    "crop_right", "crop_bottom", "motion_shutter_angle",
    "motion_shutter_phase", "motion_shutter_curvature",
    "motion_shutter_chromatic_lag", "motion_field_scale", "motion_field_rate",
    "motion_stretch", "motion_edge_repel", "motion_vector_trash",
    "motion_trash_block_size", "gesture_radius", "gesture_strength",
    "gesture_retention", "contour", "contour_bands", "contour_width",
    "contour_hue", "contour_fill", "flatten", "flatten_levels",
    "contour_dither", "solarize", "negative", "colourpass", "colourpass_hue",
    "colourpass_width", "edge_amount", "edge_hue", "emboss", "emboss_angle",
    "halftone", "halftone_pitch", "halftone_angle", "moire", "moire_freq",
    "row_smear", "bitcrush", "bitcrush_levels", "bitcrush_dither",
    "multi_grid_x", "multi_grid_y", "barrel", "chroma_aberration",
    "anamorphic_streak", "key_border", "key_shadow", "morph"]

/-- `LAYER_TARGET_SUFFIXES`, in the order of `layer_suffix_index`. -/
def layerTargetSuffixes : List String :=
  ["opacity", "speed", "fps", "key_threshold", "key_color_r", "key_color_g",
    "key_color_b", "key_tolerance", "pixelate", "rgb_split", "hue_shift",
    "saturation", "brightness", "contrast", "posterize", "grain_intensity",
    "grain_size", "vignette", "color_drift", "breathe_scale",
    "breathe_rotation", "breathe_position", "cellular_amount",
    "cellular_scale", "cellular_warp", "cellular_speed", "cellular_gap_amount",
    "cellular_gap_threshold", "cellular_gap_softness", "key_softness",
    "downsample", "shift_amount", "shift_block_size", "shift_density",
    "shift_speed", "position_x", "position_y", "scale_x", "scale_y",
    "anchor_x", "anchor_y", "rotation_deg", "skew_deg", "skew_axis_deg",
    "crop_left", "crop_top", "crop_right", "crop_bottom",
    "motion_transplant_amount", "motion_confidence_threshold",
    "motion_confidence_softness", "motion_refresh", "motion_decay",
    "motion_occlusion", "motion_shutter_angle", "motion_shutter_phase",
    "motion_shutter_curvature", "motion_shutter_chromatic_lag",
    "motion_field_scale", "motion_field_rate", "motion_stretch",
    "motion_edge_repel", "motion_vector_trash", "motion_trash_block_size",
    "contour", "contour_bands", "contour_width", "contour_hue", "contour_fill",
    "flatten", "flatten_levels", "contour_dither", "solarize", "negative",
    "colourpass", "colourpass_hue", "colourpass_width", "edge_amount",
    "edge_hue", "emboss", "emboss_angle", "halftone", "halftone_pitch",
    "halftone_angle", "moire", "moire_freq", "row_smear", "bitcrush",
    "bitcrush_levels", "bitcrush_dither", "multi_grid_x", "multi_grid_y",
    "key_border", "key_shadow", "pattern_freq_x", "pattern_freq_y",
    "pattern_phase", "pattern_rate", "pattern_cross_mod", "pattern_wavefold",
    "pattern_pulse_width", "pattern_comparator", "pattern_comp_threshold",
    "pattern_comp_soft", "pattern_symmetry", "pattern_zoom", "pattern_rotate",
    "pattern_skew", "pattern_center_x", "pattern_center_y", "pattern_warp",
    "pattern_hue", "pattern_hue_spread", "pattern_saturation",
    "pattern_brightness", "pattern_color_bands", "mosh_send"]

/-- `str::parse::<usize>`: digits, possibly behind a plus sign. -/
def parseUsize : List Char → Option ℕ
  | '+' :: digits => parseDigits u64Max digits
  | digits => parseDigits u64Max digits

/-- The text between `layer` and the first underscore, and that after it. -/
def layerParts (target : String) : Option (List Char × List Char) :=
  ("layer".toList.isPrefixOf? target.toList).bind (splitOnce '_')

def layerTarget (oneBased : ℕ) (suffix : String) : String :=
  "layer" ++ decimal oneBased ++ "_" ++ suffix

/-- `canonical_target`: the retired suffix `key` is `key_threshold`. -/
def canonicalTarget (target : String) : String :=
  match layerParts target with
  | none => target
  | some (number, suffix) =>
    if suffix ≠ "key".toList then target
    else match parseUsize number with
      | none => target
      | some layer => if layer = 0 then target else layerTarget layer "key_threshold"

def parseLayerTarget (target : String) : Option (ℕ × String) := do
  let (number, suffix) ← layerParts target
  let oneBased ← parseUsize number
  if 0 < oneBased then some (oneBased - 1, .ofList suffix) else none

inductive CompiledTarget
  | master (index : ℕ)
  | layer (index suffix : ℕ)
  | stable (target : StableModTarget)
  | invalid
  deriving DecidableEq

def masterTargetIndex (target : String) : Option ℕ := targetKeys.idxOf? target

def layerSuffixIndex (suffix : String) : Option ℕ := layerTargetSuffixes.idxOf? suffix

/-- `compile_target` on a canonical text. -/
def compileCanonical (target : String) : CompiledTarget :=
  match masterTargetIndex target with
  | some index => .master index
  | none =>
    match StableModTarget.parse target with
    | some target => .stable target
    | none =>
      match parseLayerTarget target with
      | none => .invalid
      | some (layer, suffix) => (layerSuffixIndex suffix).elim .invalid (.layer layer)

def compileTarget (target : String) : CompiledTarget := compileCanonical (canonicalTarget target)

variable {n : ℕ}

theorem parseUsize_decimal (h : n ≤ u64Max) : parseUsize (decimal n).toList = some n := by
  have hplus : '+' ∉ (decimal n).toList := notMem_decimal (by decide) n
  rw [← parseDigits_decimal h]
  cases hdigits : (decimal n).toList with
  | nil => rfl
  | cons c rest =>
    rw [hdigits, mem_cons, not_or] at hplus
    rw [parseUsize]
    rintro digits heq
    exact absurd (List.cons.inj heq).1.symm hplus.1

theorem layerParts_layerTarget (n : ℕ) (suffix : String) :
    layerParts (layerTarget n suffix) = some ((decimal n).toList, suffix.toList) := by
  have hunderscore : '_' ∉ (decimal n).toList := notMem_decimal (by decide) n
  have htext : (layerTarget n suffix).toList =
      "layer".toList ++ ((decimal n).toList ++ '_' :: suffix.toList) := by
    simp [layerTarget]
  have hstrip : "layer".toList.isPrefixOf? (layerTarget n suffix).toList =
      some ((decimal n).toList ++ '_' :: suffix.toList) := by
    rw [htext]
    rfl
  rw [layerParts, hstrip, bind_some, splitOnce_append hunderscore]

variable {target : String}

theorem layerParts_of_head (h : target.toList.head? ≠ some 'l') : layerParts target = none := by
  rw [layerParts]
  cases htext : target.toList with
  | nil => rfl
  | cons c rest =>
    rw [htext, head?_cons] at h
    have hc : ('l' == c) = false := by
      rw [beq_eq_false_iff_ne]
      rintro rfl
      exact h rfl
    simp [isPrefixOf?, hc]

theorem parseLayerTarget_layerTarget (h : n + 1 ≤ u64Max) (suffix : String) :
    parseLayerTarget (layerTarget (n + 1) suffix) = some (n, suffix) := by
  simp [parseLayerTarget, layerParts_layerTarget, parseUsize_decimal h]

variable {suffix : String}

theorem canonicalTarget_layerTarget (h : suffix ≠ "key") (n : ℕ) :
    canonicalTarget (layerTarget n suffix) = layerTarget n suffix := by
  have hkey : suffix.toList ≠ "key".toList := by rwa [ne_eq, String.toList_inj]
  rw [canonicalTarget, layerParts_layerTarget]
  simp only [ne_eq, hkey, not_false_eq_true, if_true]

theorem canonicalTarget_canonicalTarget (target : String) :
    canonicalTarget (canonicalTarget target) = canonicalTarget target := by
  have hcases : canonicalTarget target = target ∨
      ∃ n, canonicalTarget target = layerTarget n "key_threshold" := by
    rw [canonicalTarget]
    split
    · exact .inl rfl
    · split_ifs
      · exact .inl rfl
      · split
        · exact .inl rfl
        · split_ifs
          · exact .inl rfl
          · exact .inr ⟨_, rfl⟩
  rcases hcases with hsame | ⟨n, htext⟩
  · rw [hsame, hsame]
  · rw [htext, canonicalTarget_layerTarget (by decide)]

variable {i : ℕ}

theorem suffix_ne_key (hcanon : canonicalTarget target = target)
    (h : parseLayerTarget target = some (i, suffix)) : suffix ≠ "key" := by
  rintro rfl
  simp only [parseLayerTarget, bind_eq_bind, bind_eq_some_iff, ite_none_right_eq_some] at h
  obtain ⟨⟨number, chars⟩, hparts, oneBased, hnum, hpos, heq⟩ := h
  have hchars : chars = "key".toList := by
    have := congrArg (fun pair => pair.2.toList) (some.inj heq)
    simpa using this
  have hretired : canonicalTarget target = layerTarget oneBased "key_threshold" := by
    rw [canonicalTarget, hparts]
    simp [hchars, hnum, Nat.ne_of_gt hpos]
  rw [← hcanon, hretired, layerParts_layerTarget] at hparts
  have hsuf : "key_threshold".toList = "key".toList :=
    (congrArg Prod.snd (some.inj hparts)).trans hchars
  exact absurd hsuf (by decide)

theorem lt_of_parseLayerTarget (h : parseLayerTarget target = some (i, suffix)) : i < u64Max := by
  simp only [parseLayerTarget, bind_eq_bind, bind_eq_some_iff, ite_none_right_eq_some] at h
  obtain ⟨⟨number, chars⟩, -, oneBased, hnum, hpos, heq⟩ := h
  have hlim : oneBased ≤ u64Max := by
    unfold parseUsize at hnum
    split at hnum <;> exact (parseDigits_eq_some.mp hnum).2
  have hi := congrArg Prod.fst (some.inj heq)
  simp only at hi
  omega

/-- A routing, without the source and the response that no function here
reads. -/
structure Routing where
  id : ℕ
  target : String
  depth : F32
  compiledTarget : CompiledTarget
  savedMissingTarget : Option SavedStableModTarget
  (state cached : F32)
  deriving DecidableEq

namespace Routing

/-- `Routing::new`, with the identity it allocates. -/
def new (id : ℕ) (target : String) (depth : F32) : Routing :=
  { id
    target := canonicalTarget target
    depth
    compiledTarget := compileTarget (canonicalTarget target)
    savedMissingTarget := none
    state := 0
    cached := 0 }

def cachedValue (routing : Routing) : F32 := (routing.cached.finiteOr 0).clamp (-1) 1

def stableTarget (routing : Routing) : Option StableModTarget :=
  match routing.compiledTarget with
  | .stable target => some target
  | _ => none

def resetRuntime (routing : Routing) : Routing := { routing with state := 0, cached := 0 }

/-- `set_target`, without the flag it returns. -/
def setTarget (routing : Routing) (target : String) : Routing :=
  if routing.target = canonicalTarget target then routing
  else resetRuntime { routing with
    target := canonicalTarget target
    compiledTarget := compileTarget (canonicalTarget target)
    savedMissingTarget := none }

/-- `set_missing_target`; it fails when the key cannot be formatted. -/
def setMissingTarget (routing : Routing) (target : SavedStableModTarget) : Option Routing :=
  target.persistenceKey.map fun key => resetRuntime { routing with
    target := key
    compiledTarget := .invalid
    savedMissingTarget := some target }

def newMissing (id : ℕ) (target : SavedStableModTarget) (depth : F32) : Option Routing :=
  target.persistenceKey.map fun key =>
    { new id key depth with
      compiledTarget := .invalid
      savedMissingTarget := some target }

end Routing

/-- A routing as the module builds and edits it.  Depth and signal are set
freely, the target only through the constructors and setters. -/
inductive Routing.Authored : Routing → Prop
  | new (id : ℕ) (target : String) (depth : F32) : Authored (new id target depth)
  | newMissing {id : ℕ} {target : SavedStableModTarget} {depth : F32}
      {routing : Routing} (h : newMissing id target depth = some routing) :
      Authored routing
  | setTarget {routing : Routing} (h : Authored routing) (target : String) :
      Authored (routing.setTarget target)
  | setMissingTarget {routing next : Routing} (h : Authored routing)
      {target : SavedStableModTarget}
      (hset : routing.setMissingTarget target = some next) : Authored next
  | signal {routing : Routing} (h : Authored routing) (depth state cached : F32) :
      Authored { routing with depth, state, cached }

end CollideOScope.Modulation
