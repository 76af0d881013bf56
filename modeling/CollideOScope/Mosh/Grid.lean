import CollideOScope.Support.Words
import Mathlib.Data.List.ProdSigma

/-!
# The macroblock grid over the output

The blend loop walks the columns of a row cell by cell, finds the cell of the
row by division and samples the influence at a few points of each cell.  All
three come from one map of output positions to codec positions.
-/

namespace CollideOScope.Mosh

open Nat

def motionBlockPixels : ℕ := 16

/-- `saturating_mul` on 32 bits. -/
def saturatingMulU32 (a b : ℕ) : ℕ := min (a * b) (2 ^ 32 - 1)

structure OutputSpan where
  (start stop : ℕ)

namespace OutputSpan

def length (span : OutputSpan) : ℕ := span.stop - span.start

def texels (span : OutputSpan) : List ℕ := List.range' span.start span.length

/-- `SAMPLES_PER_AXIS`. -/
def samplesPerAxis : ℕ := 4

def sampleCount (span : OutputSpan) : ℕ := min span.length samplesPerAxis

/-- A coordinate that `sample_influence_alpha` reads. -/
def sample (span : OutputSpan) (i : ℕ) : ℕ :=
  span.start + min ((i * 2 + 1) * span.length / (span.sampleCount * 2)) (span.length - 1)

end OutputSpan

def scaleCeil (codecExtent outputExtent coordinate : ℕ) : ℕ :=
  min (saturatingAddU64 (coordinate * outputExtent) (codecExtent - 1) /
    max codecExtent 1) outputExtent

def motionCellOutputSpan (cell codecExtent outputExtent : ℕ) : OutputSpan :=
  let left := min (saturatingMulU32 cell motionBlockPixels) codecExtent
  let right := min
    (saturatingMulU32 (min (cell + 1) (2 ^ 32 - 1)) motionBlockPixels) codecExtent
  ⟨scaleCeil codecExtent outputExtent left, scaleCeil codecExtent outputExtent right⟩

/-- `codec_extent.div_ceil(MOSH_MOTION_BLOCK_PIXELS)`. -/
def gridExtent (codecExtent : ℕ) : ℕ := (codecExtent + (motionBlockPixels - 1)) / motionBlockPixels

/-- The `cell_y` of the blend loop. -/
def rowCell (row codecHeight height : ℕ) : ℕ :=
  min (row * codecHeight / height) (codecHeight - 1) / motionBlockPixels

structure Blend where
  (pixel cell : ℕ × ℕ)

/-- The walk of the blend loop, as pairs of a row and a column. -/
def blends (codecWidth codecHeight width height : ℕ) : List Blend :=
  (List.range height).flatMap fun row =>
    (List.range (gridExtent codecWidth)).flatMap fun cellX =>
      (motionCellOutputSpan cellX codecWidth width).texels.map fun texel =>
        ⟨(row, texel), (rowCell row codecHeight height, cellX)⟩

structure Extents (codec output : ℕ) : Prop where
  codec_pos : 0 < codec
  codec_lt : codec < 2 ^ 32
  output_pos : 0 < output
  output_lt : output < 2 ^ 32

/-- The spans tile the axis, they agree with the division and every cell is
sampled inside its span at different points. -/
structure Tiles (codec output : ℕ) (span : ℕ → OutputSpan) : Prop where
  first : (span 0).start = 0
  next : ∀ cell, (span (cell + 1)).start = (span cell).stop
  ordered : ∀ cell, (span cell).start ≤ (span cell).stop
  last : (span (gridExtent codec - 1)).stop = output
  classified : ∀ cell, ∀ i < output, i ∈ (span cell).texels ↔
    i * codec / output / motionBlockPixels = cell
  rows : ∀ i < output, rowCell i codec output = i * codec / output / motionBlockPixels
  sampled : ∀ cell, ∀ i < (span cell).sampleCount, (span cell).sample i ∈ (span cell).texels
  distinct : ∀ cell i j, i < j → j < (span cell).sampleCount →
    (span cell).sample i < (span cell).sample j

namespace OutputSpan

variable {span : OutputSpan} {i j : ℕ}

theorem mem_texels : i ∈ span.texels ↔ span.start ≤ i ∧ i < span.stop := by
  rw [texels, List.mem_range'_1, length]
  omega

theorem sample_eq (h : i < span.sampleCount) :
    (i * 2 + 1) * span.length / (span.sampleCount * 2) < span.length ∧
      span.sample i = span.start + (i * 2 + 1) * span.length / (span.sampleCount * 2) := by
  have hlen : 0 < span.length := by
    rw [sampleCount] at h
    omega
  have hlt : (i * 2 + 1) * span.length / (span.sampleCount * 2) < span.length := by
    rw [div_lt_iff_lt_mul (by omega), mul_comm span.length]
    exact mul_lt_mul_of_pos_right (by omega) hlen
  exact ⟨hlt, by rw [sample, min_eq_left (by omega)]⟩

theorem sample_mem (h : i < span.sampleCount) : span.sample i ∈ span.texels := by
  obtain ⟨hlt, heq⟩ := sample_eq h
  rw [mem_texels, heq]
  exact ⟨le_add_right _ _, add_lt_of_lt_sub' hlt⟩

theorem sample_lt (hij : i < j) (hj : j < span.sampleCount) : span.sample i < span.sample j := by
  rw [(sample_eq (hij.trans hj)).2, (sample_eq hj).2]
  refine Nat.add_lt_add_left ?_ _
  have hcnt : span.sampleCount ≤ span.length := min_le_left _ _
  rw [lt_iff_add_one_le, ← add_div_right _ (by omega)]
  refine Nat.div_le_div_right ?_
  calc
    (i * 2 + 1) * span.length + span.sampleCount * 2 ≤
        (i * 2 + 1) * span.length + 2 * span.length := by omega
    _ = (i * 2 + 1 + 2) * span.length := (add_mul _ _ _).symm
    _ ≤ (j * 2 + 1) * span.length := mul_le_mul_right _ (by omega)

end OutputSpan

def cellEdge (codec output cell : ℕ) : ℕ :=
  scaleCeil codec output (min (cell * motionBlockPixels) codec)

namespace Extents

variable {codec output : ℕ} (h : Extents codec output)
include h

theorem scaleCeil_le_iff {coordinate i : ℕ} (hle : coordinate ≤ codec) :
    scaleCeil codec output coordinate ≤ i ↔ coordinate * output ≤ i * codec := by
  obtain ⟨hpos, hlt, -, hword⟩ := h
  have hsmall : coordinate * output + (codec - 1) ≤ u64Max := by
    have hmul : coordinate * output ≤ (2 ^ 32 - 1) * (2 ^ 32 - 1) :=
      Nat.mul_le_mul (by omega) (by omega)
    rw [u64Max]
    omega
  have hceil (n : ℕ) : (coordinate * output + (codec - 1)) / codec ≤ n ↔
      coordinate * output ≤ n * codec := by
    rw [← Nat.lt_succ_iff, Nat.div_lt_iff_lt_mul hpos, Nat.succ_mul]
    omega
  have hbd := (hceil output).mpr (mul_comm output codec ▸ mul_le_mul_right output hle)
  rw [scaleCeil, saturatingAddU64_of_le hsmall, max_eq_left hpos, min_eq_left hbd, hceil]

theorem span_eq (cell : ℕ) : motionCellOutputSpan cell codec output =
    ⟨cellEdge codec output cell, cellEdge codec output (cell + 1)⟩ := by
  have hlt := h.codec_lt
  have hleft : min (saturatingMulU32 cell motionBlockPixels) codec =
      min (cell * motionBlockPixels) codec := by
    rw [saturatingMulU32]
    omega
  have hright : min (saturatingMulU32 (min (cell + 1) (2 ^ 32 - 1))
      motionBlockPixels) codec = min ((cell + 1) * motionBlockPixels) codec := by
    rw [saturatingMulU32, motionBlockPixels]
    omega
  simp only [motionCellOutputSpan, cellEdge, hleft, hright]

theorem cellEdge_le_iff {cell i : ℕ} : cellEdge codec output cell ≤ i ↔
    min (cell * motionBlockPixels) codec * output ≤ i * codec :=
  h.scaleCeil_le_iff (min_le_right _ _)

theorem position_lt {i : ℕ} (hi : i < output) : i * codec / output < codec := by
  rw [div_lt_iff_lt_mul h.output_pos, mul_comm codec]
  exact mul_lt_mul_of_pos_right hi h.codec_pos

theorem cellEdge_le_iff_cell {cell i : ℕ} (hi : i < output) :
    cellEdge codec output cell ≤ i ↔ cell ≤ i * codec / output / motionBlockPixels := by
  have hbelow := h.position_lt hi
  have hblock : 0 < motionBlockPixels := by decide
  rw [h.cellEdge_le_iff, ← le_div_iff_mul_le h.output_pos, le_div_iff_mul_le hblock]
  omega

theorem cellEdge_mono (cell : ℕ) :
    cellEdge codec output cell ≤ cellEdge codec output (cell + 1) := by
  have hle := h.cellEdge_le_iff.mp (le_refl (cellEdge codec output (cell + 1)))
  refine h.cellEdge_le_iff.mpr ((mul_le_mul_right _ ?_).trans hle)
  rw [motionBlockPixels]
  omega

theorem cellEdge_zero : cellEdge codec output 0 = 0 := le_zero.mp (h.cellEdge_le_iff.mpr (by simp))

theorem cellEdge_grid : cellEdge codec output (gridExtent codec) = output := by
  have hwhole : min (gridExtent codec * motionBlockPixels) codec = codec := by
    rw [gridExtent, motionBlockPixels]
    omega
  have hle := h.cellEdge_le_iff.mp (le_refl (cellEdge codec output (gridExtent codec)))
  rw [hwhole, mul_comm codec] at hle
  exact le_antisymm (min_le_right _ _) (le_of_mul_le_mul_right hle h.codec_pos)

open OutputSpan

theorem flatMap_texels (cells : ℕ) :
    (List.range cells).flatMap (fun cell =>
      (motionCellOutputSpan cell codec output).texels) =
        List.range (cellEdge codec output cells) := by
  simp only [h.span_eq, texels, length]
  induction cells with
  | zero => rw [h.cellEdge_zero]; rfl
  | succ cells ih =>
    have happ := @List.range'_append_1 0 (cellEdge codec output cells)
      (cellEdge codec output (cells + 1) - cellEdge codec output cells)
    rw [Nat.zero_add, Nat.add_sub_cancel' (h.cellEdge_mono cells)] at happ
    rw [List.range_succ, List.flatMap_append, ih, List.range_eq_range',
      List.range_eq_range', List.flatMap_singleton, happ]

theorem tiles : Tiles codec output (motionCellOutputSpan · codec output) := by
  have hgrid : gridExtent codec - 1 + 1 = gridExtent codec := by
    have hpos := h.codec_pos
    rw [gridExtent, motionBlockPixels]
    omega
  refine ⟨?_, ?_, ?_, ?_, ?_, ?_, fun cell i => sample_mem, fun cell i j => sample_lt⟩
  · rw [h.span_eq, h.cellEdge_zero]
  · intro cell
    rw [h.span_eq, h.span_eq]
  · intro cell
    rw [h.span_eq]
    exact h.cellEdge_mono cell
  · rw [h.span_eq, hgrid, h.cellEdge_grid]
  · intro cell i hi
    rw [mem_texels, h.span_eq, ← not_le, h.cellEdge_le_iff_cell hi, h.cellEdge_le_iff_cell hi]
    omega
  · intro i hi
    have hbelow := h.position_lt hi
    rw [rowCell, min_eq_left (by omega)]

end Extents

/-- Both axes are tiled, and the blend loop writes every pixel once, row by
row, with the cell whose spans hold the pixel. -/
theorem motion_grid_tiles_output {codecWidth codecHeight width height : ℕ}
    (hx : Extents codecWidth width) (hy : Extents codecHeight height) :
    Tiles codecWidth width (motionCellOutputSpan · codecWidth width) ∧
      Tiles codecHeight height (motionCellOutputSpan · codecHeight height) ∧
      (blends codecWidth codecHeight width height).map Blend.pixel =
        List.range height ×ˢ List.range width ∧
      ∀ blend ∈ blends codecWidth codecHeight width height,
        blend.pixel.1 ∈ (motionCellOutputSpan blend.cell.1 codecHeight height).texels ∧
        blend.pixel.2 ∈ (motionCellOutputSpan blend.cell.2 codecWidth width).texels := by
  refine ⟨hx.tiles, hy.tiles, ?_, ?_⟩
  · have hcovers := hx.flatMap_texels (gridExtent codecWidth)
    rw [hx.cellEdge_grid] at hcovers
    rw [blends, List.map_flatMap, ← hcovers]
    change _ = List.flatMap _ _
    simp only [List.map_flatMap, List.map_map, Function.comp_def]
  · intro blend hblend
    simp only [blends, List.mem_flatMap, List.mem_map, List.mem_range] at hblend
    obtain ⟨row, hrow, cellX, -, texel, htexel, rfl⟩ := hblend
    exact ⟨(hy.tiles.classified _ row hrow).mpr (hy.tiles.rows row hrow).symm, htexel⟩

theorem motion_grid_tiles_output_small :
    Tiles 64 100 (motionCellOutputSpan · 64 100) ∧
      Tiles 64 50 (motionCellOutputSpan · 64 50) ∧
      (blends 64 64 100 50).map Blend.pixel = List.range 50 ×ˢ List.range 100 ∧
      ∀ blend ∈ blends 64 64 100 50,
        blend.pixel.1 ∈ (motionCellOutputSpan blend.cell.1 64 50).texels ∧
        blend.pixel.2 ∈ (motionCellOutputSpan blend.cell.2 64 100).texels :=
  motion_grid_tiles_output ⟨by decide, by decide, by decide, by decide⟩
    ⟨by decide, by decide, by decide, by decide⟩

end CollideOScope.Mosh
