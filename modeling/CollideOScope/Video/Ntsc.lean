import CollideOScope.Support.Binary32
import CollideOScope.Support.Words

/-!
# The VHS pass

The effect rewrites a buffer of its own; the pass copies colours back, restores
the coverage and leaves the rest of the buffer alone.
-/

namespace CollideOScope.Ntsc

open Nat List

/-- Writes in order; `none` is an index outside of a buffer. -/
def fill (writes : List (ℕ × Option UInt8)) (buffer : Bytes) : Option Bytes :=
  writes.foldlM (fun buffer (index, value) => do
    let value ← value
    if index < buffer.length then some (buffer.set index value) else none) buffer

/-- The writes of two loops over the pixels of an image, four bytes each. -/
def gridWrites (width height : ℕ) (value : ℕ → ℕ → ℕ → Option UInt8) : List (ℕ × Option UInt8) :=
  (range height).flatMap fun y => (range width).flatMap fun x =>
    (range 4).map fun channel => ((y * width + x) * 4 + channel, value y x channel)

/-- The pixels of a block, with the last row and column for a missing neighbour. -/
def blockSources (width height oy ox : ℕ) : List ℕ :=
  let y0 := oy * 2
  let y1 := min (y0 + 1) (height - 1)
  let x0 := ox * 2
  let x1 := min (x0 + 1) (width - 1)
  [(y0 * width + x0) * 4, (y0 * width + x1) * 4, (y1 * width + x0) * 4, (y1 * width + x1) * 4]

def mean (samples : List UInt8) : UInt8 := .ofNat ((samples.map (·.toNat)).sum / 4)

/-- `downscale_rgba_2x`; both sides are divided rounding up. -/
def downscaleRgba2x (pixels : Bytes) (width height : ℕ) : Option Bytes :=
  let outW := (width + 1) / 2
  let outH := (height + 1) / 2
  fill (gridWrites outW outH fun oy ox channel =>
      ((blockSources width height oy ox).mapM (pixels[· + channel]?)).map mean)
    (replicate (outW * outH * 4) 0)

def upscaleRgba2x (small : Bytes) (smallWidth : ℕ) (pixels : Bytes) (width height : ℕ) :
    Option Bytes :=
  fill (gridWrites width height fun y x channel =>
    small[(y / 2 * smallWidth + x / 2) * 4 + channel]?) pixels

def sourceAlpha (pixels : Bytes) : Bytes :=
  (range (pixels.length / 4)).map fun pixel => pixels.getD (pixel * 4 + 3) 0

def restoreAlpha (pixels alpha : Bytes) : Option Bytes :=
  fill ((range (min (pixels.length / 4) alpha.length)).map fun pixel =>
    (pixel * 4 + 3, alpha[pixel]?)) pixels

inductive NtscExportQuality
  | liveParity
  | native

/-- The switch and the settings that the effect reads. -/
structure NtscParams (P : Type) where
  enabled : Bool
  settings : P

/-- What a byte of the small image is made of. -/
def blockMean (pixels : Bytes) (width height oy ox channel : ℕ) : UInt8 :=
  mean ((blockSources width height oy ox).map fun index => pixels.getD (index + channel) 0)

variable {P : Type} (effect : P → ℕ × ℕ → Bytes → ℕ → Bytes)

def applyAtReferenceFrameWithResolution (params : NtscParams P) (pixels : Bytes)
    (width height referenceFrame : ℕ) (quality : NtscExportQuality) :
    Option (Bool × Bytes) :=
  if params.enabled then
    match (checkedMulU64 width height).bind (checkedMulU64 · 4) with
    | none => some (false, pixels)
    | some expectedLen =>
      if width = 0 ∨ height = 0 ∨ pixels.length < expectedLen then some (false, pixels)
      else do
        let alpha := sourceAlpha (pixels.take expectedLen)
        let pixels ← match quality with
          | .liveParity => do
            let halfW := (width + 1) / 2
            let halfH := (height + 1) / 2
            let small ← downscaleRgba2x pixels width height
            let small := effect params.settings (halfW, halfH) small referenceFrame
            upscaleRgba2x small halfW pixels width height
          | .native => some (effect params.settings (width, height)
              (pixels.take expectedLen) referenceFrame ++ pixels.drop expectedLen)
        let pixels ← restoreAlpha pixels alpha
        return (true, pixels)
  else some (false, pixels)

structure NtscFrameMetadata (P : Type) where
  params : NtscParams P
  referenceFrame : ℕ

structure SelectiveNtscGeneration where
  (visualEpoch topologyGeneration width height sampleSequence : ℕ)

structure SelectiveNtscLayerDescriptor where
  layerId : ℕ
  visible : Bool
  bypassMasterFx : Bool
  opacity : F32
  (blendMode transformFingerprint : ℕ)

structure SelectiveNtscLayerPlan where
  layerId : ℕ
  bypassMasterFx : Bool
  opacity : F32
  (blendMode transformFingerprint : ℕ)

structure SelectiveNtscPlan (P : Type) where
  generation : SelectiveNtscGeneration
  metadata : NtscFrameMetadata P
  layers : List SelectiveNtscLayerPlan

namespace SelectiveNtscLayerDescriptor

/-- A layer without this cannot affect the compositor. -/
def contributes (layer : SelectiveNtscLayerDescriptor) : Bool :=
  layer.visible && layer.opacity.isFinite && F32.zero.lt layer.opacity

def plan (layer : SelectiveNtscLayerDescriptor) : SelectiveNtscLayerPlan :=
  ⟨layer.layerId, layer.bypassMasterFx, layer.opacity.clamp .zero .one, layer.blendMode,
    layer.transformFingerprint⟩

end SelectiveNtscLayerDescriptor

def selectiveNtscRequired (layers : List SelectiveNtscLayerDescriptor) : Bool :=
  layers.any fun layer => layer.bypassMasterFx && layer.contributes

def planSelectiveNtsc (generation : SelectiveNtscGeneration) (metadata : NtscFrameMetadata P)
    (layers : List SelectiveNtscLayerDescriptor) : Option (SelectiveNtscPlan P) :=
  if generation.width = 0 ∨ generation.height = 0 ∨ ¬ metadata.params.enabled then none
  else if ! selectiveNtscRequired layers then none
  else some ⟨generation, metadata, (layers.filter (·.contributes)).reverse.map (·.plan)⟩

section

variable {writes : List (ℕ × Option UInt8)} {buffer : Bytes}

theorem fill_spec {f : ℕ → UInt8} (hf : ∀ w ∈ writes, w.1 < buffer.length ∧ w.2 = some (f w.1)) :
    ∃ out, fill writes buffer = some out ∧ out.length = buffer.length ∧
      ∀ i, out[i]? = if i ∈ writes.map Prod.fst then some (f i) else buffer[i]? := by
  induction writes generalizing buffer with
  | nil => exact ⟨buffer, rfl, rfl, by simp⟩
  | cons w writes ih =>
    obtain ⟨⟨hlt, hval⟩, hrest⟩ := forall_mem_cons.mp hf
    obtain ⟨out, hout, hlen, hget⟩ := @ih (buffer.set w.1 (f w.1)) (by simpa using hrest)
    refine ⟨out, ?_, by simpa using hlen, fun i => ?_⟩
    · simpa [fill, hval, hlt] using hout
    · rw [hget, getElem?_set]
      by_cases hi : w.1 = i
      · subst hi
        simp [hlt]
      · simp only [if_neg hi, map_cons, mem_cons, Ne.symm hi, false_or]

/-- The pixel and the channel of a byte. -/
theorem byte_index {width y x channel : ℕ} (hx : x < width) (hchannel : channel < 4) :
    ((y * width + x) * 4 + channel) / 4 / width = y ∧
      ((y * width + x) * 4 + channel) / 4 % width = x ∧
      ((y * width + x) * 4 + channel) % 4 = channel := by
  have hpixel : ((y * width + x) * 4 + channel) / 4 = y * width + x := by omega
  rw [hpixel]
  refine ⟨?_, ?_, by omega⟩
  · rw [add_comm, add_mul_div_right _ _ (by omega), div_eq_of_lt hx, zero_add]
  · rw [add_comm, add_mul_mod_self_right, mod_eq_of_lt hx]

theorem byte_lt {width height y x channel : ℕ} (hy : y < height) (hx : x < width)
    (hchannel : channel < 4) : (y * width + x) * 4 + channel < width * height * 4 := by
  have : y * width + x < width * height := by
    calc y * width + x < y * width + width := by omega
      _ = (y + 1) * width := by ring
      _ ≤ height * width := mul_le_mul_right _ hy
      _ = width * height := mul_comm ..
  omega

theorem fill_gridWrites {width height : ℕ} {value : ℕ → ℕ → ℕ → Option UInt8}
    {v : ℕ → ℕ → ℕ → UInt8} (hlen : width * height * 4 ≤ buffer.length)
    (hv : ∀ y < height, ∀ x < width, ∀ c < 4, value y x c = some (v y x c)) :
    ∃ out, fill (gridWrites width height value) buffer = some out ∧
      out.length = buffer.length ∧
      (∀ y < height, ∀ x < width, ∀ c < 4, out[(y * width + x) * 4 + c]? = some (v y x c)) ∧
      ∀ i, width * height * 4 ≤ i → out[i]? = buffer[i]? := by
  have hmem {i : ℕ} : i ∈ (gridWrites width height value).map Prod.fst ↔
      ∃ y < height, ∃ x < width, ∃ c < 4, (y * width + x) * 4 + c = i := by
    simp [gridWrites]
  obtain ⟨out, hout, hlen', hget⟩ := @fill_spec (gridWrites width height value) buffer
    (fun i => v (i / 4 / width) (i / 4 % width) (i % 4)) (by
      intro w hw
      simp only [gridWrites, mem_flatMap, mem_map, mem_range] at hw
      obtain ⟨y, hy, x, hx, c, hc, rfl⟩ := hw
      obtain ⟨h0, h1, h2⟩ := byte_index (y := y) hx hc
      exact ⟨(byte_lt hy hx hc).trans_le hlen, by simp only [h0, h1, h2, hv y hy x hx c hc]⟩)
  refine ⟨out, hout, hlen', fun y hy x hx c hc => ?_, fun i hi => ?_⟩
  · obtain ⟨h0, h1, h2⟩ := byte_index (y := y) hx hc
    rw [hget, if_pos (hmem.mpr ⟨y, hy, x, hx, c, hc, rfl⟩), h0, h1, h2]
  · rw [hget, if_neg]
    rintro hin
    obtain ⟨y, hy, x, hx, c, hc, rfl⟩ := hmem.mp hin
    exact absurd (byte_lt hy hx hc) (not_lt.mpr hi)

theorem getElem?_eq_getD {i : ℕ} (h : i < buffer.length) : buffer[i]? = some (buffer.getD i 0) := by
  simp [h]

theorem mapM_getElem? {indices : List ℕ} {channel : ℕ}
    (h : ∀ index ∈ indices, index + channel < buffer.length) :
    indices.mapM (buffer[· + channel]?) =
      some (indices.map fun index => buffer.getD (index + channel) 0) := by
  induction indices with
  | nil => rfl
  | cons index indices ih =>
    obtain ⟨hindex, hrest⟩ := forall_mem_cons.mp h
    rw [mapM_cons, getElem?_eq_getD hindex, ih hrest]
    rfl

variable {width height : ℕ}

theorem downscaleRgba2x_spec (hw : 0 < width) (hh : 0 < height)
    (hlen : width * height * 4 ≤ buffer.length) :
    ∃ small, downscaleRgba2x buffer width height = some small ∧
      small.length = (width + 1) / 2 * ((height + 1) / 2) * 4 ∧
      ∀ oy < (height + 1) / 2, ∀ ox < (width + 1) / 2, ∀ c < 4,
        small[(oy * ((width + 1) / 2) + ox) * 4 + c]? =
          some (blockMean buffer width height oy ox c) := by
  obtain ⟨small, hsmall, hlen', hget, -⟩ := @fill_gridWrites
    (replicate ((width + 1) / 2 * ((height + 1) / 2) * 4) 0) ((width + 1) / 2)
    ((height + 1) / 2) (fun oy ox c => ((blockSources width height oy ox).mapM
      (buffer[· + c]?)).map mean) (blockMean buffer width height)
    (length_replicate ..).ge fun oy hy ox hx c hc => by
      have hin {y x : ℕ} (hy : y < height) (hx : x < width) :
          (y * width + x) * 4 + c < buffer.length := (byte_lt hy hx hc).trans_le hlen
      rw [mapM_getElem?]
      · rfl
      · simp only [blockSources, forall_mem_cons]
        refine ⟨hin ?_ ?_, hin ?_ ?_, hin ?_ ?_, hin ?_ ?_, by simp⟩ <;> omega
  exact ⟨small, hsmall, hlen'.trans (length_replicate ..), hget⟩

theorem upscaleRgba2x_spec {small : Bytes}
    (hsmall : small.length = (width + 1) / 2 * ((height + 1) / 2) * 4)
    (hlen : width * height * 4 ≤ buffer.length) :
    ∃ out, upscaleRgba2x small ((width + 1) / 2) buffer width height = some out ∧
      out.length = buffer.length ∧
      (∀ y < height, ∀ x < width, ∀ c < 4, out[(y * width + x) * 4 + c]? =
        small[(y / 2 * ((width + 1) / 2) + x / 2) * 4 + c]?) ∧
      ∀ i, width * height * 4 ≤ i → out[i]? = buffer[i]? := by
  have hv : ∀ y < height, ∀ x < width, ∀ c < 4,
      small[(y / 2 * ((width + 1) / 2) + x / 2) * 4 + c]? =
        some (small.getD ((y / 2 * ((width + 1) / 2) + x / 2) * 4 + c) 0) :=
    fun y hy x hx c hc => getElem?_eq_getD (hsmall ▸ byte_lt (by omega) (by omega) hc)
  obtain ⟨out, hout, hlen', hget, htail⟩ := fill_gridWrites hlen hv
  exact ⟨out, hout, hlen', fun y hy x hx c hc =>
    (hget y hy x hx c hc).trans (hv y hy x hx c hc).symm, htail⟩

theorem restoreAlpha_spec (alpha : Bytes) :
    ∃ out, restoreAlpha buffer alpha = some out ∧ out.length = buffer.length ∧
      ∀ i, out[i]? = if i % 4 = 3 ∧ i / 4 < min (buffer.length / 4) alpha.length then
        alpha[i / 4]? else buffer[i]? := by
  obtain ⟨out, hout, hlen, hget⟩ := @fill_spec
    ((range (min (buffer.length / 4) alpha.length)).map fun pixel =>
      (pixel * 4 + 3, alpha[pixel]?)) buffer (fun i => alpha.getD (i / 4) 0) (by
      intro w hw
      obtain ⟨pixel, hpixel, rfl⟩ := mem_map.mp hw
      rw [mem_range] at hpixel
      have hdiv : (pixel * 4 + 3) / 4 = pixel := by omega
      refine ⟨by simp only; omega, ?_⟩
      simp only [hdiv]
      exact getElem?_eq_getD (by omega))
  refine ⟨out, hout, hlen, fun i => ?_⟩
  have hmem : i ∈ ((range (min (buffer.length / 4) alpha.length)).map fun pixel =>
      (pixel * 4 + 3, alpha[pixel]?)).map Prod.fst ↔
        i % 4 = 3 ∧ i / 4 < min (buffer.length / 4) alpha.length := by
    simp only [map_map, mem_map, mem_range, Function.comp_apply]
    constructor
    · rintro ⟨pixel, hpixel, rfl⟩
      omega
    · rintro ⟨hmod, hdiv⟩
      exact ⟨i / 4, hdiv, by omega⟩
  rw [hget]
  by_cases hi : i % 4 = 3 ∧ i / 4 < min (buffer.length / 4) alpha.length
  · rw [if_pos hi, if_pos (hmem.mpr hi), getElem?_eq_getD (by omega)]
  · rw [if_neg hi, if_neg (mt hmem.mp hi)]

/-- A picture whose tail is kept gets its coverage back. -/
theorem restoreAlpha_sourceAlpha {before : Bytes} (hlen : width * height * 4 ≤ before.length)
    (hsame : buffer.length = before.length)
    (htail : ∀ i, width * height * 4 ≤ i → buffer[i]? = before[i]?) :
    ∃ out, restoreAlpha buffer (sourceAlpha (before.take (width * height * 4))) = some out ∧
      out.length = before.length ∧
      (∀ i, i % 4 = 3 ∨ width * height * 4 ≤ i → out[i]? = before[i]?) ∧
      ∀ i, i % 4 ≠ 3 → out[i]? = buffer[i]? := by
  have hcount : (sourceAlpha (before.take (width * height * 4))).length = width * height := by
    simp only [sourceAlpha, length_map, length_range, length_take]
    omega
  have halpha {k : ℕ} (hk : k < width * height) :
      (sourceAlpha (before.take (width * height * 4)))[k]? = before[k * 4 + 3]? := by
    rw [getElem?_eq_getD (by omega), sourceAlpha, getD_eq_getElem?_getD,
      getElem?_map, getElem?_range (by simp; omega)]
    simp [getElem?_take, show k * 4 + 3 < width * height * 4 by omega,
      show k * 4 + 3 < before.length by omega]
  obtain ⟨out, hout, hlen', hget⟩ :=
    @restoreAlpha_spec buffer (sourceAlpha (before.take (width * height * 4)))
  refine ⟨out, hout, hlen'.trans hsame, fun i hi => ?_, fun i hi => ?_⟩
  · rw [hget, hcount]
    split_ifs with hin
    · rw [halpha (by omega), show i / 4 * 4 + 3 = i by omega]
    · exact htail i (by omega)
  · rw [hget, if_neg fun h => hi h.1]

variable {effect} {params : NtscParams P} {referenceFrame : ℕ} {quality : NtscExportQuality}

theorem checkedLen_eq_some {expectedLen : ℕ} :
    (checkedMulU64 width height).bind (checkedMulU64 · 4) = some expectedLen ↔
      width * height * 4 < 2 ^ 64 ∧ width * height * 4 = expectedLen := by
  simp only [checkedMulU64, Option.bind_eq_some_iff, checkedWord_eq_some]
  refine ⟨?_, fun h => ⟨_, ⟨by omega, rfl⟩, h⟩⟩
  rintro ⟨_, ⟨-, rfl⟩, h⟩
  exact h

/-- The pass is on and the frame lies in its buffer. -/
def Accepts (params : NtscParams P) (pixels : Bytes) (width height : ℕ) : Prop :=
  params.enabled ∧ 0 < width ∧ 0 < height ∧ width * height * 4 ≤ pixels.length ∧
    width * height * 4 < 2 ^ 64

structure Rewrites (effect : P → ℕ × ℕ → Bytes → ℕ → Bytes) (params : NtscParams P)
    (before : Bytes) (width height referenceFrame : ℕ) (quality : NtscExportQuality)
    (done : Bool) (after : Bytes) : Prop where
  length_eq : after.length = before.length
  done_iff : done = true ↔ Accepts params before width height
  refused : done = false → after = before
  kept : ∀ i, i % 4 = 3 ∨ width * height * 4 ≤ i → after[i]? = before[i]?
  sampled : done = true → quality = .liveParity → ∃ small : Bytes,
    small.length = (width + 1) / 2 * ((height + 1) / 2) * 4 ∧
    (∀ oy < (height + 1) / 2, ∀ ox < (width + 1) / 2, ∀ c < 4,
      small[(oy * ((width + 1) / 2) + ox) * 4 + c]? =
        some (blockMean before width height oy ox c)) ∧
    ∀ y < height, ∀ x < width, ∀ c < 3, after[(y * width + x) * 4 + c]? =
      (effect params.settings ((width + 1) / 2, (height + 1) / 2) small referenceFrame)[
        (y / 2 * ((width + 1) / 2) + x / 2) * 4 + c]?

theorem apply_rewrites
    (heffect : ∀ settings size pixels frame,
      (effect settings size pixels frame).length = pixels.length) :
    ∃ done after, applyAtReferenceFrameWithResolution effect params buffer width height referenceFrame
        quality = some (done, after) ∧
      Rewrites effect params buffer width height referenceFrame quality done after := by
  have refused (h : ¬ Accepts params buffer width height) :
      Rewrites effect params buffer width height referenceFrame quality false buffer :=
    ⟨rfl, iff_of_false nofun h, fun _ => rfl, fun _ _ => rfl, nofun⟩
  unfold applyAtReferenceFrameWithResolution
  split
  · rename_i henabled
    split
    · rename_i hnone
      refine ⟨_, _, rfl, refused fun h => ?_⟩
      rw [checkedLen_eq_some.mpr ⟨h.2.2.2.2, rfl⟩] at hnone
      cases hnone
    · rename_i hchecked
      obtain ⟨hfits, rfl⟩ := checkedLen_eq_some.mp hchecked
      split_ifs with hsize
      · exact ⟨_, _, rfl, refused fun ⟨_, _, _, _, _⟩ => by omega⟩
      · have hlen : width * height * 4 ≤ buffer.length := by omega
        have haccepts : Accepts params buffer width height :=
          ⟨henabled, by omega, by omega, hlen, hfits⟩
        cases quality with
        | liveParity =>
          obtain ⟨small, hsmall, hsmallLen, hmean⟩ :=
            downscaleRgba2x_spec (by omega) (by omega) hlen
          obtain ⟨up, hup, hupLen, hcolor, htail⟩ := upscaleRgba2x_spec
            ((heffect params.settings ((width + 1) / 2, (height + 1) / 2) small
              referenceFrame).trans hsmallLen) hlen
          obtain ⟨out, hout, houtLen, hkept, hrest⟩ := restoreAlpha_sourceAlpha hlen hupLen htail
          refine ⟨true, out, by simp [hsmall, hup, hout], houtLen, iff_of_true rfl haccepts, nofun,
            hkept, fun _ _ => ⟨small, hsmallLen, hmean, fun y hy x hx c hc => ?_⟩⟩
          rw [hrest _ (by omega), hcolor y hy x hx c (by omega)]
        | native =>
          obtain ⟨out, hout, houtLen, hkept, -⟩ := @restoreAlpha_sourceAlpha
            (effect params.settings (width, height)
              (buffer.take (width * height * 4)) referenceFrame ++
                buffer.drop (width * height * 4)) width height buffer hlen
            (by simp [heffect, hlen]) fun i hi => by
              rw [getElem?_append_right (by simp [heffect]; omega), heffect,
                length_take, min_eq_left hlen, getElem?_drop]
              congr 1
              omega
          exact ⟨true, out, by simp [hout], houtLen, iff_of_true rfl haccepts, nofun, hkept, nofun⟩
  · rename_i hdisabled
    exact ⟨_, _, rfl, refused fun h => hdisabled h.1⟩

end

end CollideOScope.Ntsc
