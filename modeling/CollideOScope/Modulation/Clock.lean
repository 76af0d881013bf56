import Mathlib.Algebra.Order.Field.Rat
import Mathlib.Tactic.FieldSimp
import Mathlib.Tactic.Linarith

/-!
# The musical clock

The beat is counted from an anchor, is that of an external clock with an
offset, or is frozen by a pause.  Time is exact, and `asF32` rounds the tempo
of taps.  The internal clock never counts from before its anchor, so that it
jumps when it takes over at a negative beat, and only then.
-/

namespace CollideOScope.Modulation

structure Clock where
  (bpm anchor : ℚ)
  taps : List ℚ
  externalBeat : Option ℚ
  externalOffset : ℚ
  pausedBeat : Option ℚ

inductive ClockCall
  | setPaused (paused : Bool)
  | setExternalBeat (beat : Option ℚ)
  | setBpmAt (bpm : ℚ)
  | tap

namespace Clock

def new (now : ℚ) : Clock := ⟨120, now, [], none, 0, none⟩

variable (asF32 : ℚ → ℚ) (clock : Clock) (now : ℚ)

def internalBeat : ℚ := max (now - clock.anchor) 0 * (clock.bpm / 60)

def beat : ℚ :=
  match clock.pausedBeat, clock.externalBeat with
  | some beat, _ => beat
  | none, some beat => beat + clock.externalOffset
  | none, none => clock.internalBeat now

def anchorInternalAt (beat : ℚ) : Clock :=
  { clock with anchor := now - max beat 0 / (clock.bpm / 60) }

def setPaused (paused : Bool) : Clock :=
  match paused, clock.pausedBeat with
  | true, none => { clock with pausedBeat := some (clock.beat now) }
  | false, some frozen =>
    let clock := { clock with pausedBeat := none }
    match clock.externalBeat with
    | some raw => { clock with externalOffset := frozen - raw }
    | none => clock.anchorInternalAt now frozen
  | _, _ => clock

def setExternalBeat : Option ℚ → Clock
  | some raw =>
    let raw := max raw 0
    let externalOffset :=
      if clock.externalBeat.isNone then clock.pausedBeat.elim 0 (· - raw)
      else clock.externalOffset
    { clock with externalBeat := some raw, externalOffset }
  | none =>
    match clock.externalBeat with
    | some last =>
      let logical := clock.pausedBeat.getD (last + clock.externalOffset)
      { clock with externalBeat := none, externalOffset := 0 }.anchorInternalAt
        now logical
    | none => { clock with externalOffset := 0 }

/-- `clamp` to the tempos of the clock. -/
def clampBpm (bpm : ℚ) : ℚ := max 30 (min bpm 300)

def setBpmAt (bpm : ℚ) : Clock :=
  if clampBpm bpm = clock.bpm then clock
  else if clock.externalBeat.isNone then
    { clock with bpm := clampBpm bpm }.anchorInternalAt now (clock.beat now)
  else { clock with bpm := clampBpm bpm }

/-- `TAP_TIMEOUT` is two seconds, and `MAX_TAPS` eight. -/
def tap : Clock :=
  let taps := if clock.taps.getLast?.any fun last => 2 < now - last then []
    else clock.taps
  let taps := taps ++ [now]
  let taps := if 8 < taps.length then taps.tail else taps
  let avg := (now - taps.headD now) / (taps.length - 1)
  { clock with
    taps
    bpm := if 2 ≤ taps.length ∧ 0 < avg then clampBpm (asF32 (60 / avg))
      else clock.bpm
    anchor := now
    pausedBeat := clock.pausedBeat.map fun _ => 0 }

def call : ClockCall → Clock
  | .setPaused paused => clock.setPaused now paused
  | .setExternalBeat beat => clock.setExternalBeat now beat
  | .setBpmAt bpm => clock.setBpmAt now bpm
  | .tap => clock.tap asF32 now

/-- A clock, and the instant of its last call. -/
inductive Reached : Clock → ℚ → Prop
  | new (now : ℚ) : Reached (new now) now
  | call {clock : Clock} {last now : ℚ} (h : Reached clock last)
      (hle : last ≤ now) (call : ClockCall) :
      Reached (clock.call asF32 now call) now

/-- The call moves the beat no more than the external clock does. -/
def Steady (call : ClockCall) : Prop :=
  let next := (clock.call asF32 now call).beat now
  match call, clock.externalBeat, clock.pausedBeat with
  | .setExternalBeat (some raw), some last, none => 0 ≤ raw → next = clock.beat now + (raw - last)
  | .setExternalBeat (some _), none, none => True
  | .tap, _, _ => True
  | _, _, _ => next = clock.beat now

def TakesOverBehind : ClockCall → Prop
  | .setPaused false => clock.externalBeat = none ∧ ∃ frozen ∈ clock.pausedBeat, frozen < 0
  | .setExternalBeat none => clock.pausedBeat = none ∧
    ∃ last ∈ clock.externalBeat, last + clock.externalOffset < 0
  | _ => False

variable {asF32 clock now} {last : ℚ}

theorem clampBpm_pos (bpm : ℚ) : 0 < clampBpm bpm := lt_of_lt_of_le (by norm_num) (le_max_left _ _)

theorem elapsed_nonneg {bpm : ℚ} (h : 0 < bpm) (beat : ℚ) : 0 ≤ max beat 0 / (bpm / 60) :=
  div_nonneg (le_max_right _ _) (div_pos h (by norm_num)).le

theorem internalBeat_anchored {bpm : ℚ} (h : 0 < bpm) {taps : List ℚ}
    {external paused : Option ℚ} {offset : ℚ} (beat : ℚ) :
    internalBeat ⟨bpm, now - max beat 0 / (bpm / 60), taps, external, offset,
      paused⟩ now = max beat 0 := by
  rw [internalBeat, sub_sub_cancel, max_eq_left (elapsed_nonneg h beat)]
  exact div_mul_cancel₀ _ (div_pos h (by norm_num)).ne'

theorem Reached.anchored (h : Reached asF32 clock last) : 0 < clock.bpm ∧ clock.anchor ≤ last := by
  induction h with
  | new now => exact ⟨by norm_num [Clock.new], le_rfl⟩
  | @call clock last now _ hle c ih =>
    obtain ⟨bpm, anchor, taps, external, offset, paused⟩ := clock
    obtain ⟨hbpm, hanchor⟩ := ih
    have hkept := hanchor.trans hle
    have hanchored : ∀ {bpm : ℚ} beat, 0 < bpm → now - max beat 0 / (bpm / 60) ≤ now :=
      fun beat hpos => sub_le_self _ (elapsed_nonneg hpos beat)
    cases c with
    | setPaused call | setExternalBeat call =>
      cases call <;> cases external <;> cases paused
      all_goals first
        | exact ⟨hbpm, hkept⟩
        | exact ⟨hbpm, hanchored _ hbpm⟩
    | setBpmAt tempo =>
      have hclamp := clampBpm_pos tempo
      simp only [Clock.call, setBpmAt]
      split_ifs
      · exact ⟨hbpm, hkept⟩
      · exact ⟨hclamp, hanchored _ hclamp⟩
      · exact ⟨hclamp, hkept⟩
    | tap =>
      refine ⟨?_, le_rfl⟩
      simp only [Clock.call, tap]
      split_ifs
      all_goals first | exact clampBpm_pos _ | exact hbpm

open Clock (beat)

theorem steady_iff (hbpm : 0 < clock.bpm) (c : ClockCall) :
    Steady asF32 clock now c ↔ ¬clock.TakesOverBehind c := by
  obtain ⟨bpm, anchor, taps, external, offset, paused⟩ := clock
  have hanchored := fun bpm hbpm => @internalBeat_anchored now bpm hbpm taps
  cases c with
  | setPaused resumed =>
    cases resumed <;> cases paused <;> cases external <;>
      simp [Steady, Clock.call, setPaused, TakesOverBehind, beat,
        anchorInternalAt, hanchored _ hbpm]
  | setExternalBeat beat =>
    cases beat <;> cases paused <;> cases external <;>
      simp [Steady, Clock.call, setExternalBeat, TakesOverBehind, beat,
        anchorInternalAt, hanchored _ hbpm]
    · rfl
    · intro hraw
      rw [max_eq_left hraw]
      linarith
  | setBpmAt tempo =>
    have hbeat : 0 ≤ internalBeat ⟨bpm, anchor, taps, none, offset, none⟩ now :=
      mul_nonneg (le_max_right _ _) (div_pos hbpm (by norm_num)).le
    have hnext := @hanchored _ (clampBpm_pos tempo) none none offset
      (internalBeat ⟨bpm, anchor, taps, none, offset, none⟩ now)
    rw [max_eq_left hbeat] at hnext
    by_cases htempo : clampBpm tempo = bpm
    · cases paused <;> cases external <;>
        simp [Steady, Clock.call, setBpmAt, TakesOverBehind, htempo]
    · cases paused <;> cases external <;>
        simp [Steady, Clock.call, setBpmAt, TakesOverBehind, beat,
          anchorInternalAt, htempo, hbeat, hnext]
  | tap => exact iff_of_true trivial not_false

/-- A paused clock stands until it is tapped or resumed, an internal clock runs
at its tempo, and every call is steady but one that takes over behind. -/
theorem reached_steady_iff (asF32 : ℚ → ℚ) (h : Reached asF32 clock last) :
    (clock.pausedBeat.isSome → ∀ later, clock.beat later = clock.beat last ∧
      ∀ now call, call ≠ .tap → call ≠ .setPaused false →
        (clock.call asF32 now call).beat later = clock.beat last) ∧
    (clock.pausedBeat = none → clock.externalBeat = none →
      ∀ now later, last ≤ now → now ≤ later →
        clock.beat later = clock.beat now + clock.bpm / 60 * (later - now)) ∧
    ∀ now call, Steady asF32 clock now call ↔ ¬clock.TakesOverBehind call := by
  obtain ⟨hbpm, hanchor⟩ := h.anchored
  refine ⟨?_, ?_, fun now call => steady_iff hbpm call⟩
  · intro hpaused later
    obtain ⟨frozen, hfrozen⟩ := Option.isSome_iff_exists.mp hpaused
    refine ⟨by simp [beat, hfrozen], ?_⟩
    intro now call htap hresume
    have hkept : (clock.call asF32 now call).pausedBeat = some frozen := by
      cases call with
      | setPaused paused =>
        cases paused with
        | false => exact absurd rfl hresume
        | true => simp [Clock.call, setPaused, hfrozen]
      | setExternalBeat beat =>
        simp only [Clock.call, setExternalBeat]
        split
        · exact hfrozen
        · split <;> exact hfrozen
      | setBpmAt bpm =>
        simp only [Clock.call, setBpmAt]
        split_ifs <;> exact hfrozen
      | tap => exact absurd rfl htap
    simp [beat, hkept, hfrozen]
  · intro hpaused hexternal now later hnow hlater
    simp only [beat, hpaused, hexternal, internalBeat]
    rw [max_eq_left (by linarith), max_eq_left (by linarith)]
    linarith

theorem reached_steady_iff_resumed :
    Steady id ((new 0).call id 1 (.setPaused true)) 2 (.setPaused false) :=
  ((reached_steady_iff id ((Reached.new 0).call zero_le_one _)).2.2 2 _).mpr
    (by norm_num [TakesOverBehind, Clock.call, setPaused, new, beat, internalBeat])

/-- The external clock was set back behind the beat at which it was joined. -/
def setBack : Clock :=
  (((new 0).call id 0 (.setPaused true)).call id 0
    (.setExternalBeat (some 5))).call id 0 (.setPaused false) |>.call id 0
      (.setExternalBeat (some 0))

theorem setBack_jumps :
    ¬∀ clock last, Reached id clock last → ∀ call, Steady id clock last call := by
  intro h
  have hsteady := h setBack 0
    (.call (.call (.call (.call (.new 0) le_rfl _) le_rfl _) le_rfl _) le_rfl _)
    (.setExternalBeat none)
  change beat _ 0 = beat _ 0 at hsteady
  exact absurd hsteady (by decide +kernel)

end Clock

end CollideOScope.Modulation
