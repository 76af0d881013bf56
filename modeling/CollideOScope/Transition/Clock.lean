import CollideOScope.Support.Words
import Mathlib.Algebra.Order.Field.Basic
import Mathlib.Algebra.Order.Field.Rat
import Mathlib.Tactic.FieldSimp
import Mathlib.Tactic.Linarith

/-!
# Clock of a prepared transition

The elapsed time of a dissolve, counted in reference ticks or as an unreduced
fraction of beats in saturating 128-bit arithmetic.  The stored fraction is
always the exact one with both terms capped, so the phase is the authored
share of the elapsed time until the capped denominator loses it.
-/

namespace CollideOScope.Transition

open Nat

def u128Max : ℕ := 2 ^ 128 - 1

def saturatingAddU128 (a b : ℕ) : ℕ := min u128Max (a + b)

def saturatingMulU128 (a b : ℕ) : ℕ := min u128Max (a * b)

theorem saturatingMulU128_min (a b : ℕ) :
    saturatingMulU128 (min u128Max a) b = saturatingMulU128 a b := by
  rcases Nat.eq_zero_or_pos b with rfl | hb
  · rfl
  · rcases le_total u128Max a with h | h
    · have := Nat.le_mul_of_pos_right u128Max hb
      have := Nat.mul_le_mul_right b h
      simp only [saturatingMulU128, min_eq_left h]
      omega
    · rw [min_eq_right h]

theorem saturatingMulU128_comm (a b : ℕ) : saturatingMulU128 a b = saturatingMulU128 b a :=
  congrArg _ (mul_comm a b)

theorem capped_share {M a b : ℕ} (hM : 0 < M) (hb : 0 < b) :
    min 1 (((min M a : ℕ) : ℚ) / (min M b : ℕ)) = min 1 ((a : ℚ) / b) ↔ a = 0 ∨ b ≤ a ∨ b ≤ M := by
  have hbq : (0 : ℚ) < b := by exact_mod_cast hb
  have hMq : (0 : ℚ) < M := by exact_mod_cast hM
  rcases le_or_gt b a with ha | ha
  · have hc : (0 : ℚ) < (min M b : ℕ) := by exact_mod_cast lt_min hM hb
    have hl : ((min M b : ℕ) : ℚ) ≤ (min M a : ℕ) := by exact_mod_cast min_le_min_left M ha
    rw [min_eq_left ((one_le_div hc).mpr hl),
      min_eq_left ((one_le_div hbq).mpr (by exact_mod_cast ha))]
    simp [ha]
  · rcases le_or_gt b M with hm | hm
    · simp [hm, min_eq_right (ha.le.trans hm)]
    · rcases Nat.eq_zero_or_pos a with rfl | h0
      · simp
      · have haq : (0 : ℚ) < a := by exact_mod_cast h0
        have hlt : (a : ℚ) / b < 1 := (div_lt_one hbq).mpr (by exact_mod_cast ha)
        have hgt : (a : ℚ) / b < (min M a : ℕ) / (min M b : ℕ) := by
          rw [min_eq_left hm.le]
          rcases le_total M a with h | h
          · rwa [min_eq_left h, div_self hMq.ne']
          · rw [min_eq_right h]
            exact div_lt_div_of_pos_left haq hMq (by exact_mod_cast hm)
        have := lt_min hlt hgt
        rw [min_eq_right hlt.le]
        constructor
        · exact fun h => absurd h this.ne'
        · omega

inductive TransitionConfigError
  | zeroBeatDenominator | durationCap

inductive PreparedTransitionDuration
  | referenceTicks (ticks : UInt32)
  | rationalBeats (numerator denominator : UInt32)

def PreparedTransitionDuration.validate :
    PreparedTransitionDuration → Except TransitionConfigError Unit
  | referenceTicks ticks => if ticks ≤ 3600 then .ok () else .error .durationCap
  | rationalBeats numerator denominator =>
    if numerator ≤ 1024 ∧ denominator > 0 ∧ denominator ≤ 1024 then .ok ()
    else if denominator = 0 then .error .zeroBeatDenominator
    else .error .durationCap

structure PreparedTransition where
  duration : PreparedTransitionDuration

def PreparedTransition.validate (transition : PreparedTransition) :
    Except TransitionConfigError Unit :=
  transition.duration.validate

structure RationalBeatPosition where
  numerator : UInt64
  denominator : UInt32
  denominator_pos : 0 < denominator.toNat

structure TransitionClockObservation where
  acceptedReferenceTick : UInt64
  acceptedBeat : RationalBeatPosition
  (programPaused mediaFrozen : Bool)

structure TransitionPhase where
  (numerator denominator : ℕ)
  deriving DecidableEq

def TransitionPhase.ZERO : TransitionPhase := ⟨0, 1⟩

def TransitionPhase.ONE : TransitionPhase := ⟨1, 1⟩

structure TransitionClock where
  duration : PreparedTransitionDuration
  (elapsedTicks elapsedBeatNumerator elapsedBeatDenominator : ℕ)
  last : TransitionClockObservation

def TransitionClock.start (transition : PreparedTransition)
    (observation : TransitionClockObservation) :
    Except TransitionConfigError TransitionClock := do
  transition.validate
  return ⟨transition.duration, 0, 0, 1, observation⟩

def positiveRationalDelta (before after : RationalBeatPosition) : Option (ℕ × ℕ) :=
  let denominator := saturatingMulU128 before.denominator.toNat after.denominator.toNat
  let beforeScaled := saturatingMulU128 before.numerator.toNat after.denominator.toNat
  let afterScaled := saturatingMulU128 after.numerator.toNat before.denominator.toNat
  if afterScaled > beforeScaled then some (afterScaled - beforeScaled, denominator)
  else none

def boundedPhase (numerator denominator : ℕ) : TransitionPhase :=
  if denominator = 0 ∨ numerator ≥ denominator then .ONE
  else if numerator = 0 then .ZERO
  else ⟨numerator, denominator⟩

namespace TransitionClock

def phase (clock : TransitionClock) : TransitionPhase :=
  match clock.duration with
  | .referenceTicks duration => boundedPhase clock.elapsedTicks duration.toNat
  | .rationalBeats numerator denominator =>
    boundedPhase (saturatingMulU128 clock.elapsedBeatNumerator denominator.toNat)
      (saturatingMulU128 clock.elapsedBeatDenominator numerator.toNat)

/-- The rational part of `observe`. -/
def addBeats (beats : ℕ × ℕ) : Option (ℕ × ℕ) → ℕ × ℕ
  | none => beats
  | some (numerator, denominator) =>
    (saturatingAddU128 (saturatingMulU128 beats.1 denominator)
      (saturatingMulU128 numerator beats.2),
      max (saturatingMulU128 beats.2 denominator) 1)

def observe (clock : TransitionClock) (observation : TransitionClockObservation) :
    TransitionClock × TransitionPhase :=
  let held := observation.programPaused || observation.mediaFrozen
  let moved := if held then clock else
    let beats :=
      addBeats (clock.elapsedBeatNumerator, clock.elapsedBeatDenominator)
        (positiveRationalDelta clock.last.acceptedBeat observation.acceptedBeat)
    { clock with
      elapsedTicks := saturatingAddU64 clock.elapsedTicks
        (observation.acceptedReferenceTick.toNat - clock.last.acceptedReferenceTick.toNat)
      elapsedBeatNumerator := beats.1
      elapsedBeatDenominator := beats.2 }
  let next := { moved with last := observation }
  (next, next.phase)

end TransitionClock

def RationalBeatPosition.value (position : RationalBeatPosition) : ℚ :=
  position.numerator.toNat / position.denominator.toNat

def TransitionPhase.value (phase : TransitionPhase) : ℚ := phase.numerator / phase.denominator

def PreparedTransitionDuration.span : PreparedTransitionDuration → ℚ
  | referenceTicks ticks => ticks.toNat
  | rationalBeats numerator denominator => numerator.toNat / denominator.toNat

theorem PreparedTransitionDuration.span_nonneg
    (duration : PreparedTransitionDuration) : 0 ≤ duration.span := by
  cases duration <;> simp only [span] <;> positivity

variable (duration : PreparedTransitionDuration)
variable (last o : TransitionClockObservation)
variable (os : List TransitionClockObservation)

/-- The positive advance from one observation to the next, none while held. -/
def advance : ℚ :=
  if o.programPaused ∨ o.mediaFrozen then 0
  else match duration with
    | .referenceTicks _ => (o.acceptedReferenceTick.toNat -
        last.acceptedReferenceTick.toNat : ℕ)
    | .rationalBeats _ _ => max 0 (o.acceptedBeat.value - last.acceptedBeat.value)

/-- The time that passed over a run of observations. -/
def total : TransitionClockObservation → List TransitionClockObservation → ℚ
  | _, [] => 0
  | last, o :: os => advance duration last o + total o os

/-- The authored share of the time that passed; a zero duration is over. -/
def share (elapsed span : ℚ) : ℚ := if span = 0 then 1 else min 1 (elapsed / span)

def advanceScale : ℕ :=
  if o.programPaused ∨ o.mediaFrozen then 1
  else (positiveRationalDelta last.acceptedBeat o.acceptedBeat).elim 1 Prod.snd

/-- Product of the denominators of the counted advances. -/
def scale : TransitionClockObservation → List TransitionClockObservation → ℕ
  | _, [] => 1
  | last, o :: os => advanceScale last o * scale o os

theorem boundedPhase_value (a b : ℕ) :
    (boundedPhase a b).value = if b = 0 then 1 else min 1 ((a : ℚ) / b) := by
  unfold boundedPhase
  split_ifs with h h0 ha hb
  · simp [TransitionPhase.value, TransitionPhase.ONE]
  · have hq : (1 : ℚ) ≤ a / b := by
      rw [one_le_div (by positivity)]
      exact_mod_cast h.resolve_left h0
    simp [TransitionPhase.value, TransitionPhase.ONE, hq]
  · omega
  · simp [TransitionPhase.value, TransitionPhase.ZERO, ha]
  · omega
  · have hq : (a : ℚ) / b ≤ 1 := by
      rw [div_le_one (by positivity)]
      exact_mod_cast (by omega : a ≤ b)
    simp [TransitionPhase.value, hq]

theorem positiveRationalDelta_spec (p q : RationalBeatPosition) :
    (positiveRationalDelta p q = none ∧ q.value ≤ p.value) ∨
      ∃ n d, positiveRationalDelta p q = some (n, d) ∧ 0 < n ∧ 0 < d ∧
        (n : ℚ) / d = q.value - p.value := by
  have fits (a : ℕ) (h : a < 2 ^ 64) (b : UInt32) : saturatingMulU128 a b.toNat = a * b.toNat := by
    have := Nat.mul_lt_mul'' h b.toNat_lt
    exact min_eq_right (by unfold u128Max; omega)
  have hp : (0 : ℚ) < p.denominator.toNat := by exact_mod_cast p.denominator_pos
  have hq : (0 : ℚ) < q.denominator.toNat := by exact_mod_cast q.denominator_pos
  simp only [positiveRationalDelta, fits _ p.numerator.toNat_lt, fits _ q.numerator.toNat_lt,
    fits _ (p.denominator.toNat_lt.trans (by decide : 2 ^ 32 < 2 ^ 64))]
  split_ifs with h
  · refine .inr ⟨_, _, rfl, by omega, Nat.mul_pos p.denominator_pos q.denominator_pos, ?_⟩
    rw [cast_sub h.le]
    simp only [RationalBeatPosition.value]
    push_cast
    field_simp
  · refine .inl ⟨rfl, ?_⟩
    unfold RationalBeatPosition.value
    rw [div_le_div_iff₀ hq hp]
    exact_mod_cast not_lt.mp h

/-- The fraction stored for a time: its exact terms over `d`, capped. -/
def Capped (beats : ℕ × ℕ) (time : ℚ) (d : ℕ) : Prop :=
  ∃ n : ℕ, beats = (min u128Max n, min u128Max d) ∧ 0 < d ∧ (n = 0 → d = 1) ∧ time = n / d

/-- What the clock stores of the time that passed. -/
def Elapsed (clock : TransitionClock) (time : ℚ) (d : ℕ) : Prop :=
  match clock.duration with
  | .referenceTicks _ => ∃ n : ℕ, clock.elapsedTicks = min u64Max n ∧ time = n
  | .rationalBeats _ _ => Capped (clock.elapsedBeatNumerator, clock.elapsedBeatDenominator) time d

def Fits : PreparedTransitionDuration → ℕ → Prop
  | .referenceTicks _, _ => True
  | .rationalBeats numerator _, d => d * numerator.toNat ≤ u128Max

namespace TransitionClock

def after (clock : TransitionClock) : TransitionClock :=
  os.foldl (fun clock o => (clock.observe o).1) clock

theorem observe_duration (clock : TransitionClock) :
    (clock.observe o).1.duration = clock.duration := by
  unfold observe
  dsimp only
  split <;> rfl

variable {clock : TransitionClock} {time : ℚ} {d : ℕ}

theorem addBeats_capped {beats : ℕ × ℕ} (h : Capped beats time d) (p q : RationalBeatPosition) :
    Capped (addBeats beats (positiveRationalDelta p q)) (time + max 0 (q.value - p.value))
      (d * (positiveRationalDelta p q).elim 1 Prod.snd) := by
  obtain ⟨n, rfl, h0, h1, rfl⟩ := h
  rcases positiveRationalDelta_spec p q with ⟨hδ, hle⟩ | ⟨x, y, hδ, hx, hy, hxy⟩
  · rw [hδ, max_eq_left (by linarith), add_zero, Option.elim, mul_one]
    exact ⟨n, rfl, h0, h1, rfl⟩
  · have hyq : (0 : ℚ) < y := by exact_mod_cast hy
    have hdq : (0 : ℚ) < d := by exact_mod_cast h0
    have hdy : 0 < d * y := Nat.mul_pos h0 hy
    have hxd : 0 < x * d := Nat.mul_pos hx h0
    refine ⟨n * y + x * d, ?_, by rwa [hδ], by simp only [hδ]; omega, ?_⟩
    · simp only [hδ, addBeats, Option.elim, saturatingMulU128_min, saturatingMulU128_comm x]
      simp only [saturatingAddU128, saturatingMulU128, u128Max, mul_comm x]
      exact Prod.ext (by dsimp only; omega) (by dsimp only; omega)
    · rw [← hxy, max_eq_right (by positivity), hδ]
      push_cast [Option.elim]
      field_simp

theorem observe_elapsed (h : Elapsed clock time d) :
    Elapsed (clock.observe o).1 (time + advance clock.duration clock.last o)
      (d * advanceScale clock.last o) := by
  obtain ⟨duration, ticks, bn, bd, last⟩ := clock
  by_cases hh : o.programPaused ∨ o.mediaFrozen <;>
    simp [observe, advance, advanceScale, hh, ↓reduceIte]
  · exact h
  · cases duration with
    | referenceTicks t =>
      obtain ⟨n, hn, rfl⟩ := h
      refine ⟨n + (o.acceptedReferenceTick.toNat -
        last.acceptedReferenceTick.toNat), ?_, by push_cast; rfl⟩
      simp only at hn
      simp only [saturatingAddU64, hn]
      omega
    | rationalBeats a b => exact addBeats_capped h ..

theorem after_elapsed :
    ∀ {clock time d}, Elapsed clock time d →
      Elapsed (clock.after os) (time + total clock.duration clock.last os)
        (d * scale clock.last os) := by
  induction os with
  | nil => simp [after, total, scale]
  | cons o os ih =>
    intro clock time d h
    have := ih (observe_elapsed o h)
    rwa [observe_duration, add_assoc, mul_assoc] at this

theorem phase_share (hv : clock.duration.validate = .ok ()) (h : Elapsed clock time d) :
    clock.phase.value = share time clock.duration.span ↔
      clock.duration.span ≤ time ∨ Fits clock.duration d := by
  obtain ⟨duration, ticks, bn, bd, last⟩ := clock
  cases duration with
  | referenceTicks t =>
    obtain ⟨n, hn, rfl⟩ := h
    have hle : t.toNat ≤ u64Max := t.toNat_lt.le.trans (by decide)
    refine iff_of_true ?_ (.inr trivial)
    simp only at hn
    simp only [phase, boundedPhase_value, share, hn,
      PreparedTransitionDuration.span, cast_eq_zero]
    split_ifs with h0
    · rfl
    · have := (capped_share (a := n) (by decide : 0 < u64Max)
        (pos_of_ne_zero h0)).mpr (.inr (.inr hle))
      rwa [min_eq_right hle] at this
  | rationalBeats a b =>
    obtain ⟨n, hn, h0, h1, rfl⟩ := h
    obtain ⟨hn, hd⟩ := Prod.mk.inj hn
    obtain ⟨ha, hb⟩ : a.toNat ≤ 1024 ∧ 0 < b.toNat := by
      simp only [PreparedTransitionDuration.validate] at hv
      split_ifs at hv with hab
      exact ⟨hab.1, hab.2.1⟩
    have hbq : (0 : ℚ) < b.toNat := by exact_mod_cast hb
    have hdq : (0 : ℚ) < d := by exact_mod_cast h0
    simp only at hn hd
    simp only [phase, boundedPhase_value, hn, hd, saturatingMulU128_min,
      PreparedTransitionDuration.span, Fits]
    rcases Nat.eq_zero_or_pos a.toNat with h | h
    · simp [h, share, saturatingMulU128]
    · have haq : (0 : ℚ) < a.toNat := by exact_mod_cast h
      have hda : 0 < d * a.toNat := Nat.mul_pos h0 h
      have hs : share (n / d) (a.toNat / b.toNat) =
          min 1 (((n * b.toNat : ℕ) : ℚ) / (d * a.toNat : ℕ)) := by
        rw [share, if_neg (by positivity)]
        push_cast
        field_simp
      have hle : (a.toNat / b.toNat : ℚ) ≤ n / d ↔ d * a.toNat ≤ n * b.toNat := by
        rw [div_le_div_iff₀ hbq hdq, mul_comm d]
        exact_mod_cast Iff.rfl
      have hM : (0 : ℕ) < u128Max := by decide
      have hne : saturatingMulU128 d a.toNat ≠ 0 := (lt_min hM hda).ne'
      rw [if_neg hne, hs, hle]
      refine (capped_share hM hda).trans ⟨?_, .inr⟩
      rintro (hz | hor)
      · have := h1 ((Nat.mul_eq_zero.mp hz).resolve_right hb.ne')
        exact .inr (by rw [this, one_mul]; exact ha.trans (by decide))
      · exact hor

theorem start_ok {transition : PreparedTransition} (h : start transition o = .ok clock) :
    transition.duration.validate = .ok () ∧ clock = ⟨transition.duration, 0, 0, 1, o⟩ := by
  unfold start PreparedTransition.validate at h
  cases hv : transition.duration.validate with
  | error e => simp [hv, bind, Except.bind] at h
  | ok u =>
    simp only [hv, bind, Except.bind, pure, Except.pure, Except.ok.injEq] at h
    exact ⟨rfl, h.symm⟩

theorem start_elapsed : Elapsed ⟨duration, 0, 0, 1, o⟩ 0 1 := by
  cases duration
  · exact ⟨0, rfl, by simp⟩
  · exact ⟨0, rfl, by simp⟩

theorem after_duration : ∀ clock : TransitionClock, (clock.after os).duration = clock.duration := by
  induction os with
  | nil => exact fun _ => rfl
  | cons o os ih => exact fun clock => (ih _).trans (observe_duration o clock)

end TransitionClock

theorem advance_nonneg : 0 ≤ advance duration last o := by
  unfold advance
  split_ifs
  · rfl
  · cases duration <;> simp

theorem total_nonneg : ∀ last, 0 ≤ total duration last os := by
  induction os with
  | nil => exact fun _ => le_rfl
  | cons o os ih => exact fun last => add_nonneg (advance_nonneg ..) (ih o)

theorem total_append (q : List TransitionClockObservation) :
    ∀ last, total duration last os ≤ total duration last (os ++ q) := by
  induction os with
  | nil => exact total_nonneg duration q
  | cons o os ih => exact fun last => add_le_add_right (ih o) _

theorem share_mono {s t span : ℚ} (h0 : 0 ≤ span) (h : s ≤ t) : share s span ≤ share t span := by
  unfold share
  split_ifs
  · rfl
  · exact min_le_min_left 1 (div_le_div_of_nonneg_right h h0)

theorem share_unit {s span : ℚ} (h : 0 ≤ s) (h0 : 0 ≤ span) :
    0 ≤ share s span ∧ share s span ≤ 1 := by
  unfold share
  split_ifs
  · simp
  · exact ⟨le_min zero_le_one (div_nonneg h h0), min_le_left ..⟩

theorem share_eq_one {s span : ℚ} (h : 0 ≤ s) (h0 : 0 ≤ span) : share s span = 1 ↔ span ≤ s := by
  unfold share
  split_ifs with hs
  · simp [hs, h]
  · rw [min_eq_left_iff, one_le_div (lt_of_le_of_ne h0 (Ne.symm hs))]

/-- The law of a clock that started at `last` and observed `os`. -/
structure PhaseLaw (clock : TransitionClock) : Prop where
  exact : ∀ p, p <+: os → (clock.after p).phase.value =
    share (total clock.duration last p) clock.duration.span
  unit : ∀ p, p <+: os → 0 ≤ (clock.after p).phase.value ∧ (clock.after p).phase.value ≤ 1
  mono : ∀ p q, p <+: q → q <+: os → (clock.after p).phase.value ≤ (clock.after q).phase.value
  one : ∀ p, p <+: os → (clock.after p).phase = .ONE →
    clock.duration.span ≤ total clock.duration last p

/-- **The phase is the authored share of the time that passed exactly when,
after every observation, the duration is over or the denominator fits.** -/
theorem phase_share_of_time {transition : PreparedTransition}
    {observation : TransitionClockObservation} {clock : TransitionClock}
    (h : TransitionClock.start transition observation = .ok clock) :
    PhaseLaw observation os clock ↔ ∀ p, p <+: os →
      transition.duration.span ≤ total transition.duration observation p ∨
        Fits transition.duration (scale observation p) := by
  obtain ⟨hv, rfl⟩ := TransitionClock.start_ok _ h
  have key (p : List TransitionClockObservation) :=
    TransitionClock.phase_share (by rw [TransitionClock.after_duration]; exact hv)
      (TransitionClock.after_elapsed p (TransitionClock.start_elapsed _ observation))
  simp only [TransitionClock.after_duration, zero_add, one_mul] at key
  refine ⟨fun law p hp => (key p).mp (law.exact p hp), fun hall => ?_⟩
  have hs := transition.duration.span_nonneg
  have hex p hp := (key p).mpr (hall p hp)
  refine ⟨hex, fun p hp => ?_, ?_, ?_⟩
  · rw [hex p hp]
    exact share_unit (total_nonneg ..) hs
  · intro p q hpq hq
    rw [hex p (hpq.trans hq), hex q hq]
    obtain ⟨r, rfl⟩ := hpq
    exact share_mono hs (total_append ..)
  · intro p hp hone
    refine (share_eq_one (total_nonneg ..) hs).mp ?_
    rw [← hex p hp, hone]
    simp [TransitionPhase.value, TransitionPhase.ONE]

def atBeat (numerator : UInt64) (denominator : UInt32)
    (h : 0 < denominator.toNat) : TransitionClockObservation :=
  ⟨0, ⟨numerator, denominator, h⟩, false, false⟩

theorem phase_share_of_redraws :
    PhaseLaw (atBeat 4 2 (by decide)) [atBeat 4 2 (by decide), atBeat 11 4 (by decide)]
      ⟨.rationalBeats 3 2, 0, 0, 1, atBeat 4 2 (by decide)⟩ := by
  refine (@phase_share_of_time _ ⟨.rationalBeats 3 2⟩ _ _ rfl).mpr ?_
  intro p hp
  simp only [List.prefix_cons_iff, List.prefix_nil] at hp
  rcases hp with rfl | ⟨_, rfl, rfl | ⟨_, rfl, rfl⟩⟩ <;>
    exact .inr (le_of_ble_eq_true rfl)

/-- After three of the `2 ^ 32 - 1` parts of a beat both terms are capped, and
a dissolve of one beat is over. -/
theorem capped_clock_over :
    ¬ ∀ (transition : PreparedTransition) (o : TransitionClockObservation)
      (clock : TransitionClock) (os : List TransitionClockObservation),
      TransitionClock.start transition o = .ok clock → PhaseLaw o os clock := by
  intro h
  let part n := atBeat n 4294967295 (by decide)
  have law := h ⟨.rationalBeats 1 1⟩ (part 0) _ [part 1, part 2, part 3] rfl
  have := law.one _ (List.prefix_refl _) (by decide +kernel)
  exact absurd this (by decide +kernel)

end CollideOScope.Transition
