import Mathlib.Algebra.Order.Floor.Ring
import Mathlib.Algebra.Order.Round
import Mathlib.Data.Rat.Floor
import Mathlib.Tactic.FieldSimp
import Mathlib.Tactic.Linarith

/-!
# Windows of an audio clip

A clip is analysed as a loop.  The indices are unsigned, and the clip length is
added once or twice before the window and the hop are subtracted, which is not
enough near the start of a short clip.
-/

namespace CollideOScope.Audio

open Option List

def fftSize : ℕ := 1024

/-- The decoded samples, of which there is one. -/
structure AudioClip (A : Type) where
  samples : List A
  sampleRate : ℕ
  samples_pos : 0 < samples.length
  sampleRate_pos : 0 < sampleRate

namespace AudioClip

variable {A : Type} (clip : AudioClip A) {timeSecs : Option ℚ}

def durationSecs : ℚ := clip.samples.length / clip.sampleRate

def onsetHop : ℕ := max (clip.sampleRate / 60) 1

/-- The position that is selected; `none` is a time that is not finite. -/
def position (timeSecs : Option ℚ) : ℕ :=
  let finiteTime := (timeSecs.map (max · 0)).getD 0
  let loopTime := finiteTime - clip.durationSecs * ⌊finiteTime / clip.durationSecs⌋
  min ⌊loopTime * clip.sampleRate⌋₊ (clip.samples.length - 1)

/-- `usize` subtraction; `none` is an underflow. -/
def checkedSub (a b : ℕ) : Option ℕ := if b ≤ a then some (a - b) else none

def windows (timeSecs : Option ℚ) : Option (List (A × A)) :=
  let position := clip.position timeSecs
  (range fftSize).mapM fun index => do
    let source ← checkedSub (position + clip.samples.length + index) fftSize
    let output ← clip.samples[source % clip.samples.length]?
    let previous ←
      checkedSub (position + clip.samples.length * 2 + index) fftSize
    let previous ← checkedSub previous clip.onsetHop
    let previous ← clip.samples[previous % clip.samples.length]?
    return (output, previous)

def sampleAt (i : ℤ) : A :=
  clip.samples.get ⟨(i % clip.samples.length).toNat, by
    have := clip.samples_pos
    have := Int.emod_nonneg i (b := clip.samples.length) (by omega)
    have := Int.emod_lt_of_pos i (b := clip.samples.length) (by omega)
    omega⟩

/-- The sample of the loop at which a time stands. -/
def selected (timeSecs : Option ℚ) : ℤ :=
  ⌊(timeSecs.map (max · 0)).getD 0 * clip.sampleRate⌋ % clip.samples.length

/-- The samples that end before a position, and those one hop earlier. -/
def windowsAt (position : ℤ) : List (A × A) :=
  (range fftSize).map fun index : ℕ =>
    (clip.sampleAt (position - fftSize + index),
      clip.sampleAt (position - clip.onsetHop - fftSize + index))

theorem position_eq (timeSecs : Option ℚ) :
    (clip.position timeSecs : ℤ) = clip.selected timeSecs := by
  obtain ⟨q, hq⟩ : ∃ q, (timeSecs.map (max · 0)).getD 0 = q := ⟨_, rfl⟩
  have hlen := clip.samples_pos
  have hrate : (clip.sampleRate : ℚ) ≠ 0 := by exact_mod_cast clip.sampleRate_pos.ne'
  have hlen' : (clip.samples.length : ℚ) ≠ 0 := by exact_mod_cast hlen.ne'
  have hdiv : q / clip.durationSecs = q * clip.sampleRate / clip.samples.length := by
    rw [durationSecs]
    field_simp
  have hturns : ⌊q / clip.durationSecs⌋ = ⌊q * clip.sampleRate⌋ / clip.samples.length := by
    rw [hdiv, Int.floor_div_natCast]
  have hloop : ⌊(q - clip.durationSecs * ⌊q / clip.durationSecs⌋) *
      clip.sampleRate⌋ = ⌊q * clip.sampleRate⌋ % clip.samples.length := by
    have : (q - clip.durationSecs * ⌊q / clip.durationSecs⌋) * clip.sampleRate =
        q * clip.sampleRate - (clip.samples.length * ⌊q / clip.durationSecs⌋ : ℤ) := by
      rw [durationSecs]
      push_cast
      field_simp
    rw [this, Int.floor_sub_intCast, hturns, Int.emod_def]
  have h0 := Int.emod_nonneg ⌊q * clip.sampleRate⌋ (b := clip.samples.length) (by omega)
  have h1 := Int.emod_lt_of_pos ⌊q * clip.sampleRate⌋ (b := clip.samples.length) (by omega)
  simp only [position, selected, hq, ← Int.floor_toNat, hloop]
  omega

theorem selected_add_loops {t : ℚ} (ht : 0 ≤ t) (k : ℕ) :
    clip.selected (some (t + k * clip.durationSecs)) = clip.selected (some t) := by
  have hrate : (clip.sampleRate : ℚ) ≠ 0 := by exact_mod_cast clip.sampleRate_pos.ne'
  have hpos : 0 ≤ clip.durationSecs := by
    unfold durationSecs
    positivity
  have hmul : (t + k * clip.durationSecs) * clip.sampleRate =
      t * clip.sampleRate + (clip.samples.length * k : ℤ) := by
    rw [durationSecs]
    push_cast
    field_simp
  simp only [selected, map_some, getD_some,
    max_eq_left (add_nonneg ht (mul_nonneg k.cast_nonneg hpos)), max_eq_left ht,
    hmul, Int.floor_add_intCast, Int.add_mul_emod_self_left]

/-- The index computations reach neither window below zero. -/
def Reaches (timeSecs : Option ℚ) : Prop :=
  fftSize ≤ clip.selected timeSecs + clip.samples.length ∧
    fftSize + clip.onsetHop ≤ clip.selected timeSecs + 2 * clip.samples.length

theorem getElem?_eq_sampleAt {source : ℕ} {i : ℤ}
    (h : (source : ℤ) % clip.samples.length = i % clip.samples.length) :
    clip.samples[source % clip.samples.length]? = some (clip.sampleAt i) := by
  have hval : source % clip.samples.length = (i % clip.samples.length).toNat := by omega
  simp [sampleAt, hval]

theorem windows_eq (h : clip.Reaches timeSecs) :
    clip.windows timeSecs = some (clip.windowsAt (clip.selected timeSecs)) := by
  obtain ⟨hcurrent, hprevious⟩ := h
  rw [← position_eq] at hcurrent hprevious ⊢
  refine (congrArg (mapM · _) (funext fun index => ?_)).trans mapM_pure
  have h0 : fftSize ≤ clip.position timeSecs + clip.samples.length + index := by omega
  have h1 : fftSize ≤ clip.position timeSecs + clip.samples.length * 2 + index := by omega
  have h2 : clip.onsetHop ≤ clip.position timeSecs + clip.samples.length * 2 + index - fftSize := by
    omega
  have hs : (((clip.position timeSecs + clip.samples.length + index -
      fftSize : ℕ) : ℤ) % clip.samples.length) =
      (clip.position timeSecs - fftSize + index : ℤ) % clip.samples.length := by
    rw [← Int.add_mul_emod_self_left (_ - _ + _) _ 1]
    exact congrArg (· % _) (by omega)
  have hp : (((clip.position timeSecs + clip.samples.length * 2 + index -
      fftSize - clip.onsetHop : ℕ) : ℤ) % clip.samples.length) =
      (clip.position timeSecs - clip.onsetHop - fftSize + index : ℤ) %
        clip.samples.length := by
    rw [← Int.add_mul_emod_self_left (_ - _ - _ + _) _ 2]
    exact congrArg (· % _) (by omega)
  simp [checkedSub, h0, h1, h2, clip.getElem?_eq_sampleAt hs, clip.getElem?_eq_sampleAt hp]

theorem reaches_of_windows {windows : List (A × A)}
    (h : clip.windows timeSecs = some windows) : clip.Reaches timeSecs := by
  rw [AudioClip.windows, show fftSize = 1023 + 1 from rfl, range_succ_eq_map,
    mapM_cons] at h
  obtain ⟨first, hfirst, -⟩ := bind_eq_some_iff.mp h
  obtain ⟨a, ha, hrest⟩ := bind_eq_some_iff.mp hfirst
  obtain ⟨_, -, hrest⟩ := bind_eq_some_iff.mp hrest
  obtain ⟨b, hb, hrest⟩ := bind_eq_some_iff.mp hrest
  obtain ⟨c, hc, -⟩ := bind_eq_some_iff.mp hrest
  simp only [checkedSub, ite_none_right_eq_some, Option.some.injEq] at ha hb hc
  rw [Reaches, ← position_eq]
  simp only [fftSize]
  omega

end AudioClip

end CollideOScope.Audio
