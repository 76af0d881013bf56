import CollideOScope.Support.Rounding

/-!
# Authored values of nodes, groups and the mixer

The values a node, a group or the bus mixer carries apart from its routes.
Each kind has its own sanitizer, which brings every field into its declared
range and replaces what is not finite by a neutral value.  Sanitizing twice is
sanitizing once, so values survive every path that sanitizes them again.
-/

namespace CollideOScope.Composition

open F32

open F32 (finiteClamp)

def wrapDegrees (value : F32) : F32 :=
  if value.isFinite then
    let wrapped := (value + 180).remEuclid 360 - 180
    if wrapped.eq (-180) && value.isSignPositive then 180 else wrapped
  else 0

/-- A value between minus and plus half a turn whose distance from minus half
a turn is not rounded. -/
structure IsWrapped (value : F32) : Prop where
  finite : value.isFinite
  ne_negative_zero : value ≠ -0
  low : -(180 * scale : ℤ) ≤ value.value
  high : value.value ≤ 180 * scale
  exact : (F32.round (value.value + 180 * F32.scale)).value = value.value + 180 * scale

theorem value_halfTurn : (180 : F32).value = 180 * scale := by
  decide +kernel

theorem value_turn : (360 : F32).value = 360 * scale := by
  decide +kernel

theorem isWrapped_zero : IsWrapped 0 := by
  constructor <;> decide +kernel

theorem isWrapped_halfTurn : IsWrapped 180 := by
  constructor <;> decide +kernel

theorem scale_eq : (scale : ℤ) = 2 ^ 132 * 2 ^ 17 := by
  decide +kernel

variable {r : F32}

/-- Taking half a turn from a value between zero and a turn gives a wrapped
angle.  From a quarter of a turn on nothing is rounded; below, the result is so
large that adding half a turn again is exact. -/
theorem isWrapped_round (hr : r.isFinite) (hlow : 0 ≤ r.value) (hhigh : r.value ≤ 360 * scale) :
    IsWrapped (round (r.value - 180 * scale)) := by
  have hscale := scale_eq
  have hhalf : (units (180 : F32).magnitude : ℤ) = 180 * scale := by decide +kernel
  obtain ⟨hfin, hwith⟩ := round_within (m := (180 : F32).magnitude) (n := r.value - 180 * scale)
    (by decide +kernel) (by omega)
  refine ⟨hfin, round_ne_negative_zero _, by omega, by omega, ?_⟩
  by_cases hsmall : r.value < 64 * scale
  · have hlarge : (units (116 : F32).magnitude : ℤ) = 116 * scale := by decide +kernel
    have hsign := value_round_nonpos (n := r.value - 180 * scale) (by omega)
    have hbeyond := round_beyond (m := (116 : F32).magnitude) (n := r.value - 180 * scale)
      (by decide +kernel) (by omega)
    have hdvd : (2 ^ 132 : ℤ) ∣ (F32.round (r.value - 180 * F32.scale)).value :=
      F32.dvd_value (by omega)
    exact value_round (k := 132) (by omega) (by omega) (by decide)
  · have hex : (F32.round (r.value - 180 * F32.scale)).value = r.value - 180 * scale := by
      by_cases hwide : r.value < 256 * scale
      · have hdvd : (2 ^ 132 : ℤ) ∣ r.value := dvd_value (by omega)
        exact F32.value_round (k := 132) (by omega) (by omega) (by decide)
      · have hdvd : (2 ^ 134 : ℤ) ∣ r.value := dvd_value (by omega)
        exact value_round (k := 134) (by omega) (by omega) (by decide)
    have hself : F32.round r.value = r := by
      apply round_value hr
      rintro rfl
      revert hsmall
      decide +kernel
    rw [hex, Int.sub_add_cancel, hself]

variable {value : F32}

theorem isFinite_add_halfTurn (h : value.isFinite) : (value + 180).isFinite := by
  have hval := natAbs_value value
  have hlargest : roundMagnitude (units (infinite - 1) + 180 * scale) 1 = infinite - 1 := by
    decide +kernel
  have hbd := units_mono (Nat.le_sub_one_of_lt (isFinite_iff.mp h))
  rw [add_eq_round h (by decide) (.inr (.inl (by decide))),
    value_halfTurn, isFinite_iff, magnitude_round]
  calc
    roundMagnitude (value.value + 180 * scale).natAbs 1 ≤
        roundMagnitude (units (infinite - 1) + 180 * scale) 1 :=
      roundMagnitude_mono (by omega)
    _ = infinite - 1 := hlargest
    _ < infinite := by decide

theorem sub_halfTurn (h : r.isFinite) : r - 180 = F32.round (r.value - 180 * F32.scale) := by
  rw [← value_halfTurn]
  apply sub_eq_round h (by decide)
  by_cases heq : r.value = (180 : F32).value
  · left
    apply isNegative_of_pos
    rw [heq]
    decide +kernel
  · exact .inr (.inr heq)

theorem isWrapped_wrapDegrees (value : F32) : IsWrapped (wrapDegrees value) := by
  by_cases hfin : value.isFinite
  · obtain ⟨hr, hlow, hhigh⟩ := remEuclid_within
      (isFinite_add_halfTurn hfin) (b := 360) (by decide) (by decide +kernel)
    rw [value_turn] at hhigh
    have hwrapped := isWrapped_round hr hlow hhigh
    rw [← sub_halfTurn hr] at hwrapped
    simp only [wrapDegrees, hfin, if_true]
    split_ifs
    · exact isWrapped_halfTurn
    · exact hwrapped
  · rw [wrapDegrees, if_neg hfin]
    exact isWrapped_zero

theorem wrapDegrees_of_isWrapped (h : IsWrapped value) : wrapDegrees value = value := by
  have hself := round_value h.finite h.ne_negative_zero
  rcases h.high.eq_or_lt with hhalf | hlt
  · have hword : value = 180 := by
      rw [← hself, hhalf]
      decide +kernel
    rw [hword]
    decide +kernel
  · have hsum : value + 180 = F32.round (value.value + 180 * F32.scale) := by
      rw [← value_halfTurn]
      exact add_eq_round h.finite (by decide) (.inr (.inl (by decide)))
    have hex : (value + 180).value = value.value + 180 * scale := by rw [hsum, h.exact]
    have hlow := h.low
    have hturn := value_turn
    have hremainder : (value + 180).remEuclid 360 = value + 180 :=
      remEuclid_of_lt (isFinite_add_halfTurn h.finite) (by decide) (by omega) (by omega)
    have hback : value + 180 - 180 = value := by
      rw [sub_halfTurn (isFinite_add_halfTurn h.finite), hex, Int.add_sub_cancel, hself]
    have hsign : (value.eq (-180) && value.isSignPositive) = false := by
      by_cases hneg : value.isNegative
      · simp [isSignPositive, hneg]
      · have hkey : (-180 : F32).key < 0 := by decide +kernel
        have hne : value.key ≠ (-180 : F32).key := by
          rw [key, if_neg hneg]
          omega
        simp [eq, hne]
    simp [wrapDegrees, h.finite, hremainder, hback, hsign]

theorem wrapDegrees_wrapDegrees (value : F32) :
    wrapDegrees (wrapDegrees value) = wrapDegrees value :=
  wrapDegrees_of_isWrapped (isWrapped_wrapDegrees value)

inductive FitMode
  | stretch | fit | fill | native
  deriving DecidableEq

inductive EdgeMode
  | transparent | clamp | repeat | mirror
  deriving DecidableEq

inductive SamplingMode
  | linear | nearest
  deriving DecidableEq

/-- The crop is the left, top, right and bottom fraction of the source. -/
structure SpatialTransform where
  (position scale anchor : Vec2 F32)
  (rotationDeg skewDeg skewAxisDeg : F32)
  fit : FitMode
  crop : Vec4 F32
  edge : EdgeMode
  sampling : SamplingMode

def minCropExtent : F32 := 0.000244140625

namespace SpatialTransform

def default : SpatialTransform where
  position := ⟨0, 0⟩
  scale := ⟨1, 1⟩
  anchor := ⟨0.5, 0.5⟩
  rotationDeg := 0
  skewDeg := 0
  skewAxisDeg := 0
  fit := .stretch
  crop := ⟨0, 0, 0, 0⟩
  edge := .transparent
  sampling := .linear

def sanitizedCrop (value : F32) : F32 := finiteClamp value 0 0 (1 - minCropExtent)

def sanitizedOpposite (value near : F32) : F32 :=
  (sanitizedCrop value).min (1 - minCropExtent - sanitizedCrop near)

def sanitized (t : SpatialTransform) : SpatialTransform where
  position := t.position.map fun v => finiteClamp v 0 (-4) 4
  scale := t.scale.map fun v => finiteClamp v 1 (-16) 16
  anchor := t.anchor.map fun v => finiteClamp v 0.5 (-2) 3
  rotationDeg := wrapDegrees t.rotationDeg
  skewDeg := finiteClamp t.skewDeg 0 (-89) 89
  skewAxisDeg := wrapDegrees t.skewAxisDeg
  fit := t.fit
  crop :=
    ⟨sanitizedCrop t.crop.x, sanitizedCrop t.crop.y,
      sanitizedOpposite t.crop.z t.crop.x, sanitizedOpposite t.crop.w t.crop.y⟩
  edge := t.edge
  sampling := t.sampling

theorem isRange_crop : isRange 0 0 (1 - minCropExtent) := by
  decide +kernel

@[simp]
theorem sanitizedCrop_sanitizedCrop (value : F32) :
    sanitizedCrop (sanitizedCrop value) = sanitizedCrop value :=
  finiteClamp_finiteClamp isRange_crop value

theorem sanitizedCrop_rest (near : F32) :
    sanitizedCrop (1 - minCropExtent - sanitizedCrop near) =
      1 - minCropExtent - sanitizedCrop near := by
  have hwith : (0 : F32).le (sanitizedCrop near) ∧ (sanitizedCrop near).le (1 - minCropExtent) :=
    finiteClamp_within isRange_crop near
  have hfin : (sanitizedCrop near).isFinite :=
    isFinite_of_le (by decide) (by decide +kernel) hwith.1 hwith.2
  have hlow := value_le_of_le hwith.1
  have hhigh := value_le_of_le hwith.2
  have hzero : (0 : F32).value = 0 := by decide
  have hrest : 1 - minCropExtent - sanitizedCrop near = F32.round
      ((1 - minCropExtent).value - (sanitizedCrop near).value) :=
    F32.sub_eq_round (by decide +kernel) hfin (.inl (by decide +kernel))
  rw [hzero] at hlow
  obtain ⟨hfront, hback⟩ := round_between
    (n := (1 - minCropExtent).value - (sanitizedCrop near).value)
    (b := 1 - minCropExtent) (by decide +kernel) (sub_nonneg.mpr hhigh)
    (by omega)
  rw [← hrest] at hfront hback
  exact finiteClamp_of_le isRange_crop hfront hback

theorem sanitizedCrop_min {a b : F32} (ha : sanitizedCrop a = a) (hb : sanitizedCrop b = b) :
    sanitizedCrop (a.min b) = a.min b ∧ (a.min b).min b = a.min b := by
  have hself : b.min b = b := by simp [F32.min]
  have hcases : a.min b = b ∨ a.min b = a := by
    rw [F32.min]
    split_ifs
    · exact .inl rfl
    · exact .inl rfl
    · exact .inr rfl
  rcases hcases with h | h
  · rw [h]
    exact ⟨hb, hself⟩
  · rw [h]
    exact ⟨ha, h⟩

@[simp]
theorem sanitizedOpposite_sanitizedOpposite (value near : F32) :
    sanitizedOpposite (sanitizedOpposite value near) (sanitizedCrop near) =
      sanitizedOpposite value near := by
  obtain ⟨hcrop, hmin⟩ := sanitizedCrop_min
    (sanitizedCrop_sanitizedCrop value) (sanitizedCrop_rest near)
  simp only [sanitizedOpposite, sanitizedCrop_sanitizedCrop, hcrop, hmin]

@[simp]
theorem sanitized_sanitized (t : SpatialTransform) : t.sanitized.sanitized = t.sanitized := by
  simp (disch := decide +kernel) [sanitized, Vec2.map,
    finiteClamp_finiteClamp, wrapDegrees_wrapDegrees]

end SpatialTransform

structure DigitalColorParams where
  pixelateSize : F32
  rgbSplit : F32
  downsample : F32
  hueShift : F32
  (saturation brightness contrast posterize invert vignette colorDrift : F32)

def DigitalColorParams.sanitized (p : DigitalColorParams) : DigitalColorParams where
  pixelateSize := finiteClamp p.pixelateSize 1 1 32
  rgbSplit := finiteClamp p.rgbSplit 0 0 30
  downsample := finiteClamp p.downsample 1 0.05 1
  hueShift := wrapDegrees p.hueShift
  saturation := finiteClamp p.saturation 0 (-1) 1
  brightness := finiteClamp p.brightness 0 (-1) 1
  contrast := finiteClamp p.contrast 0 (-1) 1
  posterize := finiteClamp p.posterize 0 0 16
  invert := finiteClamp p.invert 0 0 1
  vignette := finiteClamp p.vignette 0 0 1.5
  colorDrift := finiteClamp p.colorDrift 0 0 0.02

@[simp]
theorem DigitalColorParams.sanitized_sanitized (p : DigitalColorParams) :
    p.sanitized.sanitized = p.sanitized := by
  simp (disch := decide +kernel) [sanitized, finiteClamp_finiteClamp, wrapDegrees_wrapDegrees]

inductive KeyMode
  | keepBright | keepDark | removeColor | keepColor

structure KeyParams where
  mode : KeyMode
  (threshold softness : F32)
  color : Vec3 F32
  tolerance : F32
  invert : Bool

def KeyParams.sanitized (p : KeyParams) : KeyParams where
  mode := p.mode
  threshold := finiteClamp p.threshold 0.5 0 1
  softness := finiteClamp p.softness 0.1 0 0.5
  color := ⟨finiteClamp p.color.x 0 0 1, finiteClamp p.color.y 0 0 1, finiteClamp p.color.z 0 0 1⟩
  tolerance := finiteClamp p.tolerance 0.15 0 1
  invert := p.invert

@[simp]
theorem KeyParams.sanitized_sanitized (p : KeyParams) : p.sanitized.sanitized = p.sanitized := by
  simp (disch := decide +kernel) [sanitized, finiteClamp_finiteClamp]

structure CellularParams where
  (amount scale warp speed gapAmount gapThreshold gapSoftness : F32)
  seed : UInt32

def CellularParams.sanitized (p : CellularParams) : CellularParams where
  amount := finiteClamp p.amount 0 0 1
  scale := finiteClamp p.scale 10 2 32
  warp := finiteClamp p.warp 0.35 0 1
  speed := finiteClamp p.speed 0.25 0 2
  gapAmount := finiteClamp p.gapAmount 0 0 1
  gapThreshold := finiteClamp p.gapThreshold 0.65 0 1
  gapSoftness := finiteClamp p.gapSoftness 0.08 0 0.5
  seed := p.seed

@[simp]
theorem CellularParams.sanitized_sanitized (p : CellularParams) :
    p.sanitized.sanitized = p.sanitized := by
  simp (disch := decide +kernel) [sanitized, finiteClamp_finiteClamp]

structure ShiftParams where
  (amount blockSize density speed : F32)
  seed : UInt32

def ShiftParams.sanitized (p : ShiftParams) : ShiftParams where
  amount := finiteClamp p.amount 0 0 1
  blockSize := finiteClamp p.blockSize 8 2 256
  density := finiteClamp p.density 0.5 0 1
  speed := finiteClamp p.speed 3 0 20
  seed := p.seed

@[simp]
theorem ShiftParams.sanitized_sanitized (p : ShiftParams) :
    p.sanitized.sanitized = p.sanitized := by
  simp (disch := decide +kernel) [sanitized, finiteClamp_finiteClamp]

inductive GrainAlgorithm
  | gaussian | perlin | saltPepper | blue

structure GrainParams where
  (intensity size : F32)
  algorithm : GrainAlgorithm
  color : Bool
  seed : UInt32

def GrainParams.sanitized (p : GrainParams) : GrainParams where
  intensity := finiteClamp p.intensity 0 0 0.3
  size := finiteClamp p.size 1 1 4
  algorithm := p.algorithm
  color := p.color
  seed := p.seed

@[simp]
theorem GrainParams.sanitized_sanitized (p : GrainParams) :
    p.sanitized.sanitized = p.sanitized := by
  simp (disch := decide +kernel) [sanitized, finiteClamp_finiteClamp]

structure RectangleMask where
  (center size : Vec2 F32)
  (rotationDeg feather : F32)
  invert : Bool

def RectangleMask.sanitized (p : RectangleMask) : RectangleMask where
  center := p.center.map fun v => finiteClamp v 0.5 (-2) 3
  size := p.size.map fun v => finiteClamp v 1 0 4
  rotationDeg := wrapDegrees p.rotationDeg
  feather := finiteClamp p.feather 0 0 1
  invert := p.invert

@[simp]
theorem RectangleMask.sanitized_sanitized (p : RectangleMask) :
    p.sanitized.sanitized = p.sanitized := by
  simp (disch := decide +kernel) [sanitized, Vec2.map,
    finiteClamp_finiteClamp, wrapDegrees_wrapDegrees]

structure EllipseMask where
  (center radii : Vec2 F32)
  (rotationDeg feather : F32)
  invert : Bool

def EllipseMask.sanitized (p : EllipseMask) : EllipseMask where
  center := p.center.map fun v => finiteClamp v 0.5 (-2) 3
  radii := p.radii.map fun v => finiteClamp v 0.5 0 2
  rotationDeg := wrapDegrees p.rotationDeg
  feather := finiteClamp p.feather 0 0 1
  invert := p.invert

@[simp]
theorem EllipseMask.sanitized_sanitized (p : EllipseMask) :
    p.sanitized.sanitized = p.sanitized := by
  simp (disch := decide +kernel) [sanitized, Vec2.map,
    finiteClamp_finiteClamp, wrapDegrees_wrapDegrees]

/-- The document a Study node refers to, by its digest of 32 bytes. -/
structure StudyRackParams where
  documentDigest : Option (Vector UInt8 32)

def StudyRackParams.sanitized (p : StudyRackParams) : StudyRackParams := p

structure ScanProcessorParams where
  (lines samplesPerLine : ℕ)
  amount : F32
  (ribbonWidth velocityMix tiltX tiltY perspective sCurve skew collapse : F32)
  (reverseH reverseV : Bool)
  (oscAmount oscFreq oscLock lissajous mono hue : F32)

/-- `Ord::clamp` of a count. -/
def clampCount (value low high : ℕ) : ℕ := max low (min value high)

theorem clampCount_clampCount (value : ℕ) {low high : ℕ} (h : low ≤ high) :
    clampCount (clampCount value low high) low high = clampCount value low high := by
  unfold clampCount
  omega

def ScanProcessorParams.sanitized (p : ScanProcessorParams) : ScanProcessorParams where
  lines := clampCount p.lines 16 1080
  samplesPerLine := clampCount p.samplesPerLine 64 512
  amount := finiteClamp p.amount 0 0 1
  ribbonWidth := finiteClamp p.ribbonWidth 0.12 0 1
  velocityMix := finiteClamp p.velocityMix 0.8 0 1
  tiltX := finiteClamp p.tiltX 0 (-1) 1
  tiltY := finiteClamp p.tiltY 0 (-1) 1
  perspective := finiteClamp p.perspective 0.3 0 1
  sCurve := finiteClamp p.sCurve 0 (-1) 1
  skew := finiteClamp p.skew 0 (-1) 1
  collapse := finiteClamp p.collapse 0 0 1
  reverseH := p.reverseH
  reverseV := p.reverseV
  oscAmount := finiteClamp p.oscAmount 0 0 1
  oscFreq := finiteClamp p.oscFreq 0.25 0 1
  oscLock := finiteClamp p.oscLock 1 0 1
  lissajous := finiteClamp p.lissajous 0 0 1
  mono := finiteClamp p.mono 0 0 1
  hue := finiteClamp p.hue 0 0 1

@[simp]
theorem ScanProcessorParams.sanitized_sanitized (p : ScanProcessorParams) :
    p.sanitized.sanitized = p.sanitized := by
  simp (disch := decide +kernel) [sanitized, finiteClamp_finiteClamp, clampCount_clampCount]

structure BlockDctParams where
  (amount quantize hfPenalty chromaCrush block : F32)

def BlockDctParams.sanitized (p : BlockDctParams) : BlockDctParams where
  amount := finiteClamp p.amount 0 0 1
  quantize := finiteClamp p.quantize 0.25 0 1
  hfPenalty := finiteClamp p.hfPenalty 0.5 0 1
  chromaCrush := finiteClamp p.chromaCrush 0.4 0 1
  block := finiteClamp p.block 0.35 0 1

@[simp]
theorem BlockDctParams.sanitized_sanitized (p : BlockDctParams) :
    p.sanitized.sanitized = p.sanitized := by
  simp (disch := decide +kernel) [sanitized, finiteClamp_finiteClamp]

structure PixelSortParams where
  (amount threshold : F32)

def PixelSortParams.sanitized (p : PixelSortParams) : PixelSortParams where
  amount := finiteClamp p.amount 0 0 1
  threshold := finiteClamp p.threshold 0.45 0 1

@[simp]
theorem PixelSortParams.sanitized_sanitized (p : PixelSortParams) :
    p.sanitized.sanitized = p.sanitized := by
  simp (disch := decide +kernel) [sanitized, finiteClamp_finiteClamp]

inductive AvalancheAxis
  | sub | up | average

structure AvalancheParams where
  (amount run : F32)
  axis : AvalancheAxis

def AvalancheParams.sanitized (p : AvalancheParams) : AvalancheParams where
  amount := finiteClamp p.amount 0 0 1
  run := finiteClamp p.run 0.4 0 1
  axis := p.axis

@[simp]
theorem AvalancheParams.sanitized_sanitized (p : AvalancheParams) :
    p.sanitized.sanitized = p.sanitized := by
  simp (disch := decide +kernel) [sanitized, finiteClamp_finiteClamp]

inductive WipePattern
  | dissolve | wipeH | wipeV | diagonal | box | circle | splitH | splitV
  | blindsV | blindsH | clock | diagBars | blocks

inductive BackColor
  | white | yellow | cyan | green | magenta | red | blue | black

inductive BlendMode
  | normal | screen | multiply | difference | add | subtract | darken | lighten
  | overlay | softLight | hardLight | exclusion | dodge | burn | alphaCut
  | vividLight | pinLight | divide | wrapAdd | xor | and | hue | saturation
  | color | luminosity
  deriving DecidableEq

structure BusMixParams where
  pattern : WipePattern
  (soft originX originY detail : F32)
  invert : Bool
  rep : ℕ
  border : F32
  borderColor : BackColor
  blend : BlendMode

def BusMixParams.default : BusMixParams where
  pattern := .dissolve
  soft := 0.03
  originX := 0
  originY := 0
  detail := 0.3
  invert := false
  rep := 1
  border := 0
  borderColor := .white
  blend := .normal

/-- A crossfade has no destination to cut, so that blend becomes the normal
one. -/
def authorableBlend (blend : BlendMode) : BlendMode := if blend = .alphaCut then .normal else blend

def BusMixParams.sanitized (p : BusMixParams) : BusMixParams where
  pattern := p.pattern
  soft := finiteClamp p.soft 0.03 0 1
  originX := finiteClamp p.originX 0 (-1) 1
  originY := finiteClamp p.originY 0 (-1) 1
  detail := finiteClamp p.detail 0.3 0 1
  invert := p.invert
  rep := clampCount p.rep 1 4
  border := finiteClamp p.border 0 0 1
  borderColor := p.borderColor
  blend := authorableBlend p.blend

structure DirtParams where
  (dirt rate drop cut knock noise : F32)

def DirtParams.default : DirtParams := ⟨0, 0.3, 0.5, 0.4, 0.5, 0.35⟩

def DirtParams.sanitized (p : DirtParams) : DirtParams where
  dirt := finiteClamp p.dirt 0 0 1
  rate := finiteClamp p.rate 0.3 0 1
  drop := finiteClamp p.drop 0.5 0 1
  cut := finiteClamp p.cut 0.4 0 1
  knock := finiteClamp p.knock 0.5 0 1
  noise := finiteClamp p.noise 0.35 0 1

structure MeltParams where
  (melt width hold swirl chroma creep : F32)

def MeltParams.default : MeltParams := ⟨0, 0.3, 0.6, 0, 0.5, 0.35⟩

def MeltParams.sanitized (p : MeltParams) : MeltParams where
  melt := finiteClamp p.melt 0 0 2
  width := finiteClamp p.width 0.3 0 2
  hold := finiteClamp p.hold 0.6 0 1.5
  swirl := finiteClamp p.swirl 0 (-1) 1
  chroma := finiteClamp p.chroma 0.5 0 1
  creep := finiteClamp p.creep 0.35 0 1

structure BusMixerState where
  mix : BusMixParams
  dirt : DirtParams
  melt : MeltParams

def BusMixerState.default : BusMixerState :=
  ⟨BusMixParams.default, DirtParams.default, MeltParams.default⟩

def BusMixerState.sanitized (s : BusMixerState) : BusMixerState :=
  ⟨s.mix.sanitized, s.dirt.sanitized, s.melt.sanitized⟩

end CollideOScope.Composition
