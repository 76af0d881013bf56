import CollideOScope.Support.Machine
import Mathlib.Algebra.Order.Field.Basic
import Mathlib.Algebra.Order.Field.Rat
import Mathlib.Tactic.FieldSimp
import Mathlib.Tactic.Linarith
import Mathlib.Tactic.Ring

/-!
# Morph glides

A glide moves the crossfader in beat space.  A snapshot keeps its position and
the beats that remain, and the restore takes the remainder from the distances
once more.  A glide closer to its target than the tolerance is not kept.
-/

namespace CollideOScope.Morph

variable {K : Type} [Field K] [LinearOrder K]

/-- `f32::EPSILON`. -/
def epsilon : K := 1 / 8388608

def normalizedPosition (value : K) : K := max 0 (min 1 value)

def positionsEqual (a b : K) : Prop :=
  |normalizedPosition a - normalizedPosition b| ≤ epsilon

instance (a b : K) : Decidable (positionsEqual a b) := inferInstanceAs (Decidable (_ ≤ _))

def lerp (a b : K) (weights : K × K) : K := if a = b then a else a * weights.1 + b * weights.2

structure MorphGlide (K : Type) where
  start : K
  target : K
  startBeat : K
  durationBeats : K

namespace MorphGlide

def withRemaining (start target startBeat durationBeats : K) : MorphGlide K :=
  ⟨normalizedPosition start, normalizedPosition target, startBeat, max 0 (min 64 durationBeats)⟩

def new (start target startBeat durationBeats : K) : MorphGlide K :=
  withRemaining start target startBeat
    (if durationBeats ≤ 0 then 0 else max (1 / 4) (min 64 durationBeats))

def sanitized (glide : MorphGlide K) : MorphGlide K :=
  withRemaining glide.start glide.target glide.startBeat glide.durationBeats

def positionAt (glide : MorphGlide K) (beat : K) : K :=
  let clean := glide.sanitized
  if clean.durationBeats ≤ 0 then clean.target
  else
    let progress := max 0 (min 1 ((beat - clean.startBeat) / clean.durationBeats))
    lerp clean.start clean.target (1 - progress, progress)

def isCompleteAt (glide : MorphGlide K) (beat : K) : Bool :=
  glide.sanitized.durationBeats ≤ 0 ||
    glide.sanitized.startBeat + glide.sanitized.durationBeats ≤ beat

/-- `rebase_glide_from_position`. -/
def rebase (glide : MorphGlide K) (position newStartBeat : K) : Option (MorphGlide K) :=
  let glide := glide.sanitized
  let position := normalizedPosition position
  if glide.durationBeats ≤ 0 ∨ positionsEqual position glide.target then none
  else
    let distance := |glide.target - glide.start|
    let remainingDistance := |glide.target - position|
    let remaining :=
      if distance > epsilon then glide.durationBeats *
        max 0 (min 1 (remainingDistance / distance)) else 0
    if remaining > 0 then some (withRemaining position glide.target newStartBeat remaining)
    else none

end MorphGlide

/-- The position of a Morph or of its snapshot. -/
structure Glider (K : Type) where
  t : K
  glide : Option (MorphGlide K)

namespace Glider

def positionAtBeat (morph : Glider K) (beat : K) : K :=
  (morph.glide.map (·.positionAt beat)).getD (normalizedPosition morph.t)

def setPosition (t : K) : Glider K := ⟨normalizedPosition t, none⟩

def startGlide (morph : Glider K) (target durationBeats startBeat : K) : Glider K :=
  let start := morph.positionAtBeat startBeat
  let glide := MorphGlide.new start target startBeat durationBeats
  if glide.durationBeats ≤ 0 then ⟨glide.target, none⟩ else ⟨start, some glide⟩

def settleGlideAt (morph : Glider K) (beat : K) : Glider K :=
  ⟨morph.positionAtBeat beat, morph.glide.filter (! ·.isCompleteAt beat)⟩

def fromMorphAtBeat (morph : Glider K) (beat : K) : Glider K :=
  let t := morph.positionAtBeat beat
  ⟨t, (morph.glide.map (·.sanitized)).bind fun glide =>
    if glide.isCompleteAt beat ∨ positionsEqual t glide.target then none
    else
      let endBeat := glide.startBeat + glide.durationBeats
      let sampledBeat := max glide.startBeat (min endBeat beat)
      let remaining := max 0 (endBeat - sampledBeat)
      if remaining > 0 then some (.withRemaining t glide.target 0 remaining)
      else none⟩

def intoMorphAtBeat (snapshot : Glider K) (beat : K) : Glider K :=
  let t := normalizedPosition snapshot.t
  ⟨t, (snapshot.glide.map (·.sanitized)).bind (·.rebase t beat)⟩

end Glider

inductive GlideCall (K : Type)
  | setPosition (t : K)
  | startGlide (target durationBeats startBeat : K)
  | settleGlideAt (beat : K)
  | restore (saved restored : K)

def Glider.restore (morph : Glider K) (saved restored : K) : Glider K :=
  (morph.fromMorphAtBeat saved).intoMorphAtBeat restored

def glideMachine : Machine (Glider K) (GlideCall K) where
  start morph := morph = ⟨0, none⟩
  step morph
    | .setPosition t => some (.setPosition t)
    | .startGlide target durationBeats startBeat =>
      some (morph.startGlide target durationBeats startBeat)
    | .settleGlideAt beat => some (morph.settleGlideAt beat)
    | .restore saved restored => some (morph.restore saved restored)

theorem normalizedPosition_of_mem {value : K} (h : value ∈ Set.Icc 0 1) :
    normalizedPosition value = value := by
  rw [normalizedPosition, min_eq_right h.2, max_eq_right h.1]

theorem MorphGlide.withRemaining_of_mem {start target startBeat durationBeats : K}
    (hs : start ∈ Set.Icc 0 1) (ht : target ∈ Set.Icc 0 1)
    (h0 : 0 ≤ durationBeats) (h1 : durationBeats ≤ 64) :
    withRemaining start target startBeat durationBeats =
      ⟨start, target, startBeat, durationBeats⟩ := by
  rw [withRemaining, normalizedPosition_of_mem hs, normalizedPosition_of_mem ht,
    min_eq_right h1, max_eq_right h0]

structure MorphGlide.Clean (g : MorphGlide K) : Prop where
  start : g.start ∈ Set.Icc 0 1
  target : g.target ∈ Set.Icc 0 1
  pos : 0 < g.durationBeats
  le : g.durationBeats ≤ 64

theorem MorphGlide.Clean.sanitized {g : MorphGlide K} (h : g.Clean) : g.sanitized = g :=
  withRemaining_of_mem h.start h.target h.pos.le h.le

variable [IsStrictOrderedRing K]

theorem epsilon_pos : (0 : K) < epsilon := by
  unfold epsilon
  positivity

theorem normalizedPosition_mem (value : K) : normalizedPosition value ∈ Set.Icc 0 1 :=
  ⟨le_max_left .., max_le zero_le_one (min_le_left ..)⟩

structure Glider.Clean (m : Glider K) : Prop where
  t : m.t ∈ Set.Icc 0 1
  glide : ∀ g ∈ m.glide, g.Clean

namespace MorphGlide

variable {g : MorphGlide K} {beat : K}

theorem withRemaining_clean {start target startBeat durationBeats : K}
    (h : 0 < (withRemaining start target startBeat durationBeats).durationBeats) :
    (withRemaining start target startBeat durationBeats).Clean :=
  ⟨normalizedPosition_mem _, normalizedPosition_mem _, h, max_le (by norm_num) (min_le_left ..)⟩

theorem rebase_clean {position newStartBeat : K} {rebased : MorphGlide K}
    (h : g.rebase position newStartBeat = some rebased) :
    rebased.Clean ∧ rebased.startBeat = newStartBeat := by
  simp only [rebase] at h
  split_ifs at h
  all_goals
    cases h
    exact ⟨withRemaining_clean (lt_max_of_lt_right (lt_min (by norm_num) ‹_›)), rfl⟩

def progress (g : MorphGlide K) (beat : K) : K :=
  max 0 (min 1 ((beat - g.startBeat) / g.durationBeats))

theorem progress_mono (h : g.Clean) {x y : K} (hxy : x ≤ y) : g.progress x ≤ g.progress y := by
  have := h.pos
  unfold progress
  gcongr

theorem progress_mem : g.progress beat ∈ Set.Icc 0 1 := normalizedPosition_mem _

omit [IsStrictOrderedRing K] in
theorem Clean.positionAt (h : g.Clean) : g.positionAt beat =
    g.start + (g.target - g.start) * g.progress beat := by
  simp only [MorphGlide.positionAt, h.sanitized, if_neg h.pos.not_ge, lerp]
  split_ifs with heq
  · rw [heq]
    ring
  · rw [progress]
    ring

theorem Clean.positionAt_mem (h : g.Clean) : g.positionAt beat ∈ Set.Icc 0 1 := by
  obtain ⟨h0, h1⟩ : g.progress beat ∈ Set.Icc 0 1 := progress_mem
  rw [h.positionAt]
  constructor <;> nlinarith [h.start.1, h.start.2, h.target.1, h.target.2]

omit [IsStrictOrderedRing K] in
theorem Clean.isCompleteAt (h : g.Clean) : g.isCompleteAt beat = true ↔
    g.startBeat + g.durationBeats ≤ beat := by
  simp [MorphGlide.isCompleteAt, h.sanitized, h.pos]

theorem Clean.progress_complete (h : g.Clean) (hbeat : g.startBeat + g.durationBeats ≤ beat) :
    g.progress beat = 1 := by
  have : 1 ≤ (beat - g.startBeat) / g.durationBeats := by
    rw [le_div_iff₀ h.pos]
    linarith
  rw [progress, min_eq_left this, max_eq_right zero_le_one]

theorem Clean.positionAt_between (h : g.Clean) {x y : K} (hxy : x ≤ y) :
    g.positionAt x ≤ g.positionAt y ∧ g.positionAt y ≤ g.target ∨
      g.target ≤ g.positionAt y ∧ g.positionAt y ≤ g.positionAt x := by
  have hmono := progress_mono h hxy
  obtain ⟨-, h1⟩ : g.progress y ∈ Set.Icc 0 1 := progress_mem
  rw [h.positionAt, h.positionAt]
  rcases le_total g.start g.target with hle | hle
  · exact .inl (by constructor <;> nlinarith)
  · exact .inr (by constructor <;> nlinarith)

theorem Clean.progress_rest (h : g.Clean) (hb : g.startBeat ≤ beat)
    (hopen : beat < g.startBeat + g.durationBeats) {d : K} (hd : 0 ≤ d) :
    g.progress (beat + d) = g.progress beat + (1 - g.progress beat) *
      max 0 (min 1 (d / (g.startBeat + g.durationBeats - beat))) := by
  have hrem : 0 < g.startBeat + g.durationBeats - beat := by linarith
  rcases le_total (g.startBeat + g.durationBeats) (beat + d) with hle | hle
  · have : 1 ≤ d / (g.startBeat + g.durationBeats - beat) := by
      rw [le_div_iff₀ hrem]
      linarith
    rw [h.progress_complete hle, min_eq_left this, max_eq_right zero_le_one]
    ring
  · have hshare (x : K) (h0 : g.startBeat ≤ x) (h1 : x ≤ g.startBeat + g.durationBeats) :
        g.progress x = (x - g.startBeat) / g.durationBeats :=
      normalizedPosition_of_mem ⟨div_nonneg (by linarith) h.pos.le,
        (div_le_one h.pos).mpr (by linarith)⟩
    have hq : d / (g.startBeat + g.durationBeats - beat) ∈ Set.Icc 0 1 :=
      ⟨div_nonneg hd hrem.le, (div_le_one hrem).mpr (by linarith)⟩
    have := h.pos.ne'
    rw [hshare _ (by linarith) hle, hshare _ hb hopen.le, min_eq_right hq.2, max_eq_right hq.1]
    field_simp
    ring

theorem Clean.rebase_start (h : g.Clean) (newStartBeat : K)
    (hfar : ¬ |g.start - g.target| ≤ epsilon) :
    g.rebase g.start newStartBeat = some { g with startBeat := newStartBeat } := by
  rw [abs_sub_comm] at hfar
  have hne : |g.target - g.start| ≠ 0 := (epsilon_pos.trans (not_le.mp hfar)).ne'
  simp [rebase, h.sanitized, positionsEqual, normalizedPosition_of_mem h.start,
    normalizedPosition_of_mem h.target, abs_sub_comm g.start, hfar, h.pos,
    not_le.mp hfar, hne, withRemaining_of_mem h.start h.target h.pos.le h.le]

theorem Clean.positionAt_start (h : g.Clean) : g.positionAt g.startBeat = g.start := by
  simp [h.positionAt, progress]

theorem Clean.positionAt_complete (h : g.Clean) (hbeat : g.startBeat + g.durationBeats ≤ beat) :
    g.positionAt beat = g.target := by
  rw [h.positionAt, h.progress_complete hbeat]
  ring

end MorphGlide

namespace Glider

variable {m : Glider K} {g : MorphGlide K} {b c d : K}

theorem positionAtBeat_mem (h : m.Clean) (beat : K) : m.positionAtBeat beat ∈ Set.Icc 0 1 := by
  unfold positionAtBeat
  cases hg : m.glide with
  | none => exact normalizedPosition_mem _
  | some g => exact (h.glide g hg).positionAt_mem

theorem intoMorphAtBeat_clean (snapshot : Glider K) (beat : K) :
    (snapshot.intoMorphAtBeat beat).Clean := by
  refine ⟨normalizedPosition_mem _, fun g hg => ?_⟩
  obtain ⟨_, -, hrebase⟩ := Option.bind_eq_some_iff.mp hg
  exact (MorphGlide.rebase_clean hrebase).1

theorem clean_of_reachable (h : glideMachine.Reachable m) : m.Clean := by
  refine h.invariant ?_ ?_
  · rintro _ rfl
    exact ⟨by simp, by simp⟩
  · intro m call next hc hstep
    cases call with
    | setPosition t =>
      cases hstep
      exact ⟨normalizedPosition_mem _, by simp [setPosition]⟩
    | startGlide target durationBeats startBeat =>
      cases hstep
      unfold startGlide
      dsimp only
      split_ifs with hdur
      · exact ⟨normalizedPosition_mem _, by simp⟩
      · refine ⟨positionAtBeat_mem hc _, ?_⟩
        rintro _ ⟨⟩
        exact MorphGlide.withRemaining_clean (not_le.mp hdur)
    | settleGlideAt beat =>
      cases hstep
      refine ⟨positionAtBeat_mem hc _, fun g hg => ?_⟩
      exact hc.glide g (Option.filter_eq_some_iff.mp hg).1
    | restore saved restored =>
      cases hstep
      exact intoMorphAtBeat_clean ..

theorem restore_of_near (h : m.Clean) (hg : m.glide = some g)
    (hnear : g.isCompleteAt b ∨
      |m.positionAtBeat b - g.target| ≤ epsilon) :
    m.restore b c = ⟨m.positionAtBeat b, none⟩ := by
  have hc := h.glide g hg
  have ht := positionAtBeat_mem h b
  simp only [restore, fromMorphAtBeat, intoMorphAtBeat, hg, Option.map_some, Option.bind_some,
    hc.sanitized, positionsEqual, normalizedPosition_of_mem ht, normalizedPosition_of_mem hc.target,
    if_pos hnear, Option.map_none, Option.bind_none]

theorem restore_of_far (h : m.Clean) (hg : m.glide = some g) (hb : g.startBeat ≤ b)
    (hopen : ¬ g.isCompleteAt b) (hfar : ¬ |m.positionAtBeat b - g.target| ≤ epsilon) :
    m.restore b c = ⟨m.positionAtBeat b, some
      ⟨m.positionAtBeat b, g.target, c, g.startBeat + g.durationBeats - b⟩⟩ := by
  have hc := h.glide g hg
  have ht := positionAtBeat_mem h b
  have hlt : b < g.startBeat + g.durationBeats := by simpa [hc.isCompleteAt] using hopen
  have hrem : 0 < g.startBeat + g.durationBeats - b := by linarith
  have hle : g.startBeat + g.durationBeats - b ≤ 64 := by linarith [hc.le]
  have hleft : MorphGlide.Clean ⟨m.positionAtBeat b, g.target, 0,
      g.startBeat + g.durationBeats - b⟩ := ⟨ht, hc.target, hrem, hle⟩
  simp only [restore, fromMorphAtBeat, intoMorphAtBeat, hg, Option.map_some, Option.bind_some,
    hc.sanitized, positionsEqual, normalizedPosition_of_mem ht, normalizedPosition_of_mem hc.target,
    if_neg (not_or.mpr ⟨hopen, hfar⟩), min_eq_right hlt.le, max_eq_right hb, max_eq_right hrem.le,
    if_pos hrem, MorphGlide.withRemaining_of_mem ht hc.target hrem.le hle, hleft.sanitized]
  rw [hleft.rebase_start c hfar]

/-- The glide is over, so the position stays. -/
def IsComplete (m : Glider K) (beat : K) : Prop := ∀ g ∈ m.glide, g.isCompleteAt beat

/-- The glide still moves, within the tolerance of its target. -/
def IsNear (m : Glider K) (beat : K) : Prop :=
  ∃ g ∈ m.glide, ¬ g.isCompleteAt beat ∧
    |m.positionAtBeat beat - g.target| ≤ epsilon

theorem restore_of_some (h : m.Clean) (hg : m.glide = some g) (hb : g.startBeat ≤ b) (hd : 0 ≤ d) :
    |(m.restore b c).positionAtBeat (c + d) - m.positionAtBeat (b + d)| ≤ epsilon ∧
      (¬ m.IsNear b →
        (m.restore b c).positionAtBeat (c + d) = m.positionAtBeat (b + d) ∧
          ((m.restore b c).IsComplete (c + d) ↔ m.IsComplete (b + d))) := by
  have hc := h.glide g hg
  have ht := positionAtBeat_mem h b
  have hpos (x : K) : m.positionAtBeat x = g.positionAt x := by simp [positionAtBeat, hg]
  by_cases hnear : g.isCompleteAt b ∨
      |m.positionAtBeat b - g.target| ≤ epsilon
  · have hkept : (⟨m.positionAtBeat b, none⟩ : Glider K).positionAtBeat
        (c + d) = m.positionAtBeat b := normalizedPosition_of_mem ht
    rw [restore_of_near h hg hnear, hkept, hpos, hpos]
    by_cases hdone : g.isCompleteAt b
    · have hend := hc.isCompleteAt.mp hdone
      have hlater : g.startBeat + g.durationBeats ≤ b + d := by linarith
      rw [hc.positionAt_complete hend, hc.positionAt_complete hlater]
      refine ⟨by simp [epsilon_pos.le], fun _ => ⟨rfl, ?_⟩⟩
      simp [IsComplete, hg, hc.isCompleteAt.mpr hlater]
    · have hn := hnear.resolve_left hdone
      refine ⟨?_, fun hnot => absurd ⟨g, hg, hdone, hn⟩ hnot⟩
      rw [hpos, abs_le] at hn
      rw [abs_le]
      rcases hc.positionAt_between (by linarith : b ≤ b + d) with h | h <;>
        constructor <;> linarith
  · obtain ⟨hopen, hfar⟩ := not_or.mp hnear
    have hlt : b < g.startBeat + g.durationBeats := by simpa [hc.isCompleteAt] using hopen
    have hleft := (intoMorphAtBeat_clean (m.fromMorphAtBeat b) c).glide
    change ∀ g ∈ (m.restore b c).glide, g.Clean at hleft
    rw [restore_of_far h hg hb hopen hfar] at hleft ⊢
    replace hleft := hleft _ rfl
    have heq : MorphGlide.positionAt ⟨m.positionAtBeat b, g.target, c,
        g.startBeat + g.durationBeats - b⟩ (c + d) =
        g.positionAt (b + d) := by
      rw [hleft.positionAt, hc.positionAt, hc.progress_rest hb hlt hd, hpos, hc.positionAt]
      simp only [MorphGlide.progress, add_sub_cancel_left]
      ring
    have hat : Glider.positionAtBeat ⟨m.positionAtBeat b, some
        ⟨m.positionAtBeat b, g.target, c, g.startBeat + g.durationBeats - b⟩⟩ (c + d) =
        m.positionAtBeat (b + d) := heq.trans (hpos _).symm
    refine ⟨by simp [hat, epsilon_pos.le], fun _ => ⟨hat, ?_⟩⟩
    simp only [IsComplete, hg, Option.mem_some_iff, forall_eq', hleft.isCompleteAt, hc.isCompleteAt]
    constructor <;> intro _ <;> linarith

/-- **A recalled glide goes on as the one that was saved**, but for a glide saved
within the tolerance of its target, whose position stays where it was saved. -/
theorem restore_positionAtBeat (h : glideMachine.Reachable m)
    (hb : ∀ g ∈ m.glide, g.startBeat ≤ b) :
    (∀ d, 0 ≤ d →
      |(m.restore b c).positionAtBeat (c + d) - m.positionAtBeat (b + d)| ≤ epsilon ∧
        (¬ m.IsNear b →
          (m.restore b c).positionAtBeat (c + d) = m.positionAtBeat (b + d) ∧
            ((m.restore b c).IsComplete (c + d) ↔ m.IsComplete (b + d)))) ∧
    (∀ g ∈ (m.restore b c).glide, g.startBeat = c) ∧
    (∀ beat, m.positionAtBeat beat ∈ Set.Icc 0 1) ∧
    (∀ target durationBeats, 0 < durationBeats →
      (m.startGlide target durationBeats b).positionAtBeat b = m.positionAtBeat b) ∧
    ∀ g ∈ m.glide, ∀ x y, x ≤ y →
      (m.positionAtBeat x ≤ m.positionAtBeat y ∧ m.positionAtBeat y ≤ g.target ∨
        g.target ≤ m.positionAtBeat y ∧ m.positionAtBeat y ≤ m.positionAtBeat x) ∧
      (g.isCompleteAt y → m.positionAtBeat y = g.target) := by
  have hc := clean_of_reachable h
  refine ⟨?_, ?_, positionAtBeat_mem hc, ?_, ?_⟩
  · intro d hd
    cases hg : m.glide with
    | none =>
      have hnorm := normalizedPosition_of_mem (normalizedPosition_mem m.t)
      simp [restore, fromMorphAtBeat, intoMorphAtBeat, positionAtBeat, hg,
        hnorm, IsComplete, epsilon_pos.le]
    | some g => exact restore_of_some hc hg (hb g hg) hd
  · intro g hg
    obtain ⟨_, -, hrebase⟩ := Option.bind_eq_some_iff.mp hg
    exact (MorphGlide.rebase_clean hrebase).2
  · intro target durationBeats hpos
    have hnew : 0 < (MorphGlide.new (m.positionAtBeat b) target b durationBeats).durationBeats := by
      simp [MorphGlide.new, MorphGlide.withRemaining, hpos.not_ge]
    simp only [startGlide, if_neg hnew.not_ge]
    exact (MorphGlide.withRemaining_clean hnew).positionAt_start.trans
      (normalizedPosition_of_mem (positionAtBeat_mem hc b))
  · intro g hg x y hxy
    have hpos (x : K) : m.positionAtBeat x = g.positionAt x := by
      simp [positionAtBeat, Option.mem_def.mp hg]
    rw [hpos, hpos]
    have hg := hc.glide g hg
    exact ⟨hg.positionAt_between hxy,
      fun hdone => hg.positionAt_complete (hg.isCompleteAt.mp hdone)⟩

/-- A glide over half the tolerance, started at beat zero. -/
def faint : Glider ℚ := startGlide ⟨0, none⟩ (1 / 2 ^ 24) 1 0

theorem faint_reachable : glideMachine.Reachable faint :=
  ⟨_, rfl, .tail (.refl _) (e := .startGlide (1 / 2 ^ 24) 1 0) trivial rfl⟩

theorem restore_positionAtBeat_faint :
    |(faint.restore 0 0).positionAtBeat (0 + 1) - faint.positionAtBeat (0 + 1)| ≤ epsilon :=
  ((restore_positionAtBeat faint_reachable (by decide +kernel)).1 1 (by decide)).1

/-- Saved halfway, the glide stays there instead of reaching its target. -/
theorem faint_restored_halfway :
    ¬ ∀ (m : Glider ℚ) (b c d : ℚ), glideMachine.Reachable m →
      (∀ g ∈ m.glide, g.startBeat ≤ b) → 0 ≤ d →
        (m.restore b c).positionAtBeat (c + d) = m.positionAtBeat (b + d) := by
  intro h
  have := h faint (1 / 2) 0 1 faint_reachable (by decide +kernel) (by decide)
  exact absurd this (by decide +kernel)

end Glider

end CollideOScope.Morph
