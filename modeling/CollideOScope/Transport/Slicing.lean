import CollideOScope.Transport.Timeline

/-!
# Slicing of transport time

A running tick moves a clip by a distance that is linear in its seconds and
beats, and each end law moves along a circle or toward an end.  Two successive
ticks therefore lead to the same motion as one tick over their sum, with the
boundary events of both.
-/

namespace CollideOScope.Transport

open Nat ClipTransportState NormalizedTime Option

theorem saturatedEventCount_of_lt {events : ℤ} (h₀ : 0 ≤ events)
    (h : saturatedEventCount events < u32Max) :
    (saturatedEventCount events : ℤ) = events := by
  unfold saturatedEventCount at h ⊢
  by_cases hnone : events ≤ 0
  · rw [if_pos hnone]
    exact le_antisymm h₀ hnone
  rw [if_neg hnone] at h ⊢
  by_cases hlarge : (u32Max : ℤ) ≤ events
  · rw [if_pos hlarge] at h
    exact absurd h (lt_irrefl _)
  · rw [if_neg hlarge]
    exact Int.toNat_of_nonneg h₀

variable {m n : ℤ}

theorem saturatedEventCount_mono (h : m ≤ n) : saturatedEventCount m ≤ saturatedEventCount n := by
  unfold saturatedEventCount
  split
  · exact zero_le _
  split
  · split
    · omega
    · split
      · exact le_refl _
      · omega
  · split
    · omega
    · split
      · omega
      · omega

theorem saturatedEventCount_add (hm : 0 ≤ m) (hn : 0 ≤ n)
    (h : saturatedEventCount (m + n) < u32Max) :
    saturatedEventCount m + saturatedEventCount n = saturatedEventCount (m + n) := by
  have hleft := saturatedEventCount_of_lt hm ((saturatedEventCount_mono (by omega)).trans_lt h)
  have hright := saturatedEventCount_of_lt hn ((saturatedEventCount_mono (by omega)).trans_lt h)
  have hboth := saturatedEventCount_of_lt (add_nonneg hm hn) h
  omega

/-- A motion in two slices ends like the whole motion, with its events. -/
structure Slices (first second whole : Advance) : Prop where
  position_eq : second.position = whole.position
  direction_eq : second.direction = whole.direction
  completed_eq : second.completed = whole.completed
  events_eq : whole.boundaryEvents < u32Max →
    first.boundaryEvents + second.boundaryEvents = whole.boundaryEvents

section

variable {position start stop d e : ℚ} {direction : PlaybackDirection}
  {behavior : EndBehavior} {completed : Bool}

theorem advanceLoop_mem (hspan : 0 < stop - start) :
    start ≤ (advanceLoop position direction start stop d).position ∧
      (advanceLoop position direction start stop d).position ≤ stop := by
  cases direction with
  | forward =>
    have hnonneg := remEuclid_nonneg (x := position - start + d) hspan
    have hlt := remEuclid_lt (x := position - start + d) hspan
    simp only [advanceLoop]
    constructor
    · linarith
    · linarith
  | reverse =>
    have hnonneg := remEuclid_nonneg (x := stop - position + d) hspan
    have hlt := remEuclid_lt (x := stop - position + d) hspan
    simp only [advanceLoop]
    constructor
    · linarith
    · linarith

theorem advanceLoop_slices (hspan : 0 < stop - start)
    (hmem : start ≤ position ∧ position ≤ stop) (hd : 0 ≤ d) (he : 0 ≤ e) :
    Slices (advanceLoop position direction start stop d)
      (advanceLoop (advanceLoop position direction start stop d).position direction start stop e)
      (advanceLoop position direction start stop (d + e)) := by
  have hturns (offset : ℚ) (hoff : 0 ≤ offset) :
      saturatedEventCount ⌊(offset + (d + e)) / (stop - start)⌋ < u32Max →
        saturatedEventCount ⌊(offset + d) / (stop - start)⌋ +
            saturatedEventCount ⌊(remEuclid (offset + d) (stop - start) + e) / (stop - start)⌋ =
          saturatedEventCount ⌊(offset + (d + e)) / (stop - start)⌋ := by
    intro hunsaturated
    have hfst : 0 ≤ ⌊(offset + d) / (stop - start)⌋ :=
      Int.floor_nonneg.mpr (div_nonneg (add_nonneg hoff hd) hspan.le)
    have hsnd : 0 ≤ crossings (stop - start) (offset + d) e := crossings_nonneg hspan he
    have hsum : ⌊(offset + (d + e)) / (stop - start)⌋ =
        ⌊(offset + d) / (stop - start)⌋ + crossings (stop - start) (offset + d) e := by
      rw [crossings, ← add_assoc]
      ring
    rw [floor_remEuclid_add hspan]
    rw [hsum] at hunsaturated ⊢
    exact saturatedEventCount_add hfst hsnd hunsaturated
  cases direction with
  | forward =>
    simp only [advanceLoop, add_sub_cancel_left]
    refine ⟨?_, rfl, rfl, hturns _ (sub_nonneg.mpr hmem.1)⟩
    rw [remEuclid_remEuclid_add hspan, add_assoc]
  | reverse =>
    simp only [advanceLoop, sub_sub_cancel]
    refine ⟨?_, rfl, rfl, hturns _ (sub_nonneg.mpr hmem.2)⟩
    rw [remEuclid_remEuclid_add hspan, add_assoc]

def pingPongPhase (span offset : ℚ) : PlaybackDirection → ℚ
  | .forward => offset
  | .reverse => 2 * span - offset

def pingPongDirection (span phase : ℚ) : PlaybackDirection :=
  if phase < span then .forward else .reverse

theorem fold_branches (folded : ℚ) (events : ℕ) :
    (if folded < stop - start then
        (⟨start + folded, .forward, false, events⟩ : Advance)
      else if stop - start < folded then ⟨stop - (folded - (stop - start)), .reverse, false, events⟩
      else ⟨stop, .reverse, false, events⟩) =
      ⟨start + reflect (stop - start) folded,
        pingPongDirection (stop - start) folded, false, events⟩ := by
  unfold reflect pingPongDirection
  rcases lt_trichotomy folded (stop - start) with hlt | heq | hgt
  · rw [if_pos hlt, if_pos hlt.le, if_pos hlt]
  · rw [if_neg heq.not_lt, if_neg heq.not_gt, if_pos heq.le, if_neg heq.not_lt, heq, add_sub_cancel]
  · rw [if_neg hgt.not_gt, if_pos hgt, if_neg hgt.not_ge, if_neg hgt.not_gt]
    refine congrArg (fun p => Advance.mk p _ _ _) ?_
    ring

theorem advancePingPong_eq :
    advancePingPong position direction start stop d =
      let span := stop - start
      let phase := pingPongPhase span (position - start) direction
      let folded := remEuclid (phase + d) (2 * span)
      ⟨start + reflect span folded, pingPongDirection span folded, false,
        saturatedEventCount (crossings span phase d)⟩ := by
  cases direction with
  | forward | reverse => exact fold_branches _ _

theorem pingPongPhase_reflect (span phase : ℚ) :
    pingPongPhase span (reflect span phase) (pingPongDirection span phase) = phase := by
  unfold reflect pingPongDirection
  rcases lt_trichotomy phase span with hlt | heq | hgt
  · rw [if_pos hlt.le, if_pos hlt]
    rfl
  · rw [if_pos heq.le, if_neg heq.not_lt, pingPongPhase, heq]
    ring
  · rw [if_neg hgt.not_ge, if_neg hgt.not_gt, pingPongPhase]
    ring

theorem advancePingPong_mem (hspan : 0 < stop - start) :
    start ≤ (advancePingPong position direction start stop d).position ∧
      (advancePingPong position direction start stop d).position ≤ stop := by
  have hpos : 0 < 2 * (stop - start) := by linarith
  rw [advancePingPong_eq]
  constructor
  · have hnonneg := reflect_nonneg (remEuclid_nonneg
      (x := pingPongPhase (stop - start) (position - start) direction + d)
      hpos) (remEuclid_lt hpos)
    linarith
  · have hle : reflect (stop - start) (remEuclid
        (pingPongPhase (stop - start) (position - start) direction + d)
        (2 * (stop - start))) ≤ stop - start := reflect_le
    linarith

theorem advancePingPong_slices (hspan : 0 < stop - start) (hd : 0 ≤ d) (he : 0 ≤ e) :
    Slices (advancePingPong position direction start stop d)
      (advancePingPong (advancePingPong position direction start stop d).position
        (advancePingPong position direction start stop d).direction
        start stop e)
      (advancePingPong position direction start stop (d + e)) := by
  have hpos : 0 < 2 * (stop - start) := by linarith
  simp only [advancePingPong_eq, add_sub_cancel_left, pingPongPhase_reflect]
  generalize pingPongPhase (stop - start) (position - start) direction = phase
  have hfolded : remEuclid (remEuclid (phase + d) (2 * (stop - start)) + e) (2 * (stop - start)) =
      remEuclid (phase + (d + e)) (2 * (stop - start)) := by
    rw [remEuclid_remEuclid_add hpos, add_assoc]
  have hcrossings : crossings (stop - start) (remEuclid (phase + d) (2 * (stop - start))) e =
      crossings (stop - start) (phase + d) e :=
    crossings_remEuclid hspan 2
  rw [hfolded, hcrossings]
  refine ⟨rfl, rfl, rfl, ?_⟩
  rw [crossings_add]
  exact saturatedEventCount_add (crossings_nonneg hspan hd) (crossings_nonneg hspan he)

theorem advanceToEnd_mem (direction : PlaybackDirection)
    (hmem : start ≤ position ∧ position ≤ stop) (hd : 0 ≤ d) :
    start ≤ (advanceToEnd position direction start stop d).position ∧
      (advanceToEnd position direction start stop d).position ≤ stop := by
  obtain ⟨hstart, hstop⟩ := hmem
  cases direction with
  | forward =>
    unfold advanceToEnd
    by_cases hreach : stop ≤ position + d
    · rw [if_pos hreach]
      exact ⟨hstart.trans hstop, le_refl _⟩
    · rw [if_neg hreach]
      exact ⟨le_add_of_le_of_nonneg hstart hd, (not_le.mp hreach).le⟩
  | reverse =>
    unfold advanceToEnd
    by_cases hreach : position - d ≤ start
    · rw [if_pos hreach]
      exact ⟨le_refl _, hstart.trans hstop⟩
    · rw [if_neg hreach]
      exact ⟨(not_le.mp hreach).le, (sub_le_self _ hd).trans hstop⟩

theorem advancePosition_rest (hmem : start ≤ position ∧ position ≤ stop)
    (hrest : d ≤ 0 ∨ completed = true) :
    advancePosition position direction behavior start stop d completed =
      ⟨position, direction, completed, 0⟩ := by
  rw [advancePosition, if_pos hrest, clamp_of_mem hmem.1 hmem.2]

theorem advancePosition_moving (direction : PlaybackDirection) (behavior : EndBehavior)
    (hmem : start ≤ position ∧ position ≤ stop) (hspan : 0 < stop - start) (hd : 0 < d) :
    advancePosition position direction behavior start stop d false =
      match behavior with
      | .loop => advanceLoop position direction start stop d
      | .pingPong => advancePingPong position direction start stop d
      | .oneShot => advanceToEnd position direction start stop d
      | .hold => advanceToEnd position direction start stop d := by
  have hmoves : ¬(d ≤ 0 ∨ false = true) := by
    rintro (hle | hfalse)
    · exact absurd hd (not_lt.mpr hle)
    · cases hfalse
  have hclamp := clamp_of_mem hmem.1 hmem.2
  cases behavior with
  | loop | pingPong | oneShot | hold =>
    simp only [advancePosition, hmoves, hspan.not_ge, hclamp, if_false]

theorem advancePosition_point (position : ℚ) (direction : PlaybackDirection)
    (behavior : EndBehavior) (hspan : stop - start ≤ 0) (hd : 0 < d) :
    ∃ ended : Bool,
      advancePosition position direction behavior start stop d false =
        ⟨start, direction, ended, ended.toNat⟩ ∧
      ∀ p e, 0 < e →
        advancePosition p direction behavior start stop e false =
          ⟨start, direction, ended, ended.toNat⟩ := by
  refine ⟨decide (behavior = .oneShot ∨ behavior = .hold), ?_, ?_⟩
  · have hmoves : ¬(d ≤ 0 ∨ false = true) := by simpa using hd
    rw [advancePosition, if_neg hmoves, if_pos hspan]
    cases behavior <;> rfl
  · intro p e he
    have hmoves : ¬(e ≤ 0 ∨ false = true) := by simpa using he
    rw [advancePosition, if_neg hmoves, if_pos hspan]
    cases behavior <;> rfl

theorem advancePosition_mem (direction : PlaybackDirection) (behavior : EndBehavior)
    (completed : Bool) (hmem : start ≤ position ∧ position ≤ stop) (hd : 0 ≤ d) :
    start ≤ (advancePosition position direction behavior start stop d completed).position ∧
      (advancePosition position direction behavior start stop d completed).position ≤ stop := by
  by_cases hrest : d ≤ 0 ∨ completed = true
  · rw [advancePosition_rest hmem hrest]
    exact hmem
  obtain ⟨hmoves, hrun⟩ := not_or.mp hrest
  rw [Bool.eq_false_of_not_eq_true hrun]
  by_cases hspan : 0 < stop - start
  · rw [advancePosition_moving _ _ hmem hspan (not_le.mp hmoves)]
    cases behavior with
    | loop => exact advanceLoop_mem hspan
    | pingPong => exact advancePingPong_mem hspan
    | oneShot | hold => exact advanceToEnd_mem direction hmem hd
  · obtain ⟨ended, hend, -⟩ := advancePosition_point position direction
      behavior (not_lt.mp hspan) (not_le.mp hmoves)
    rw [hend]
    exact ⟨le_refl _, hmem.1.trans hmem.2⟩

theorem advanceToEnd_slices (hmem : start ≤ position ∧ position ≤ stop) (hspan : 0 < stop - start)
    (hd : 0 < d) (he : 0 < e) (hbeh : behavior = .oneShot ∨ behavior = .hold) :
    let first := advanceToEnd position direction start stop d
    Slices first
      (advancePosition first.position first.direction behavior start stop e first.completed)
      (advanceToEnd position direction start stop (d + e)) := by
  have hfst := advanceToEnd_mem direction hmem hd.le
  have hrest (ended : Advance) (hend : ended.completed = true)
      (hin : start ≤ ended.position ∧ ended.position ≤ stop)
      (hevs : ended.boundaryEvents = 1) :
      Slices ended (advancePosition ended.position ended.direction behavior
        start stop e ended.completed) ended := by
    rw [advancePosition_rest hin (.inr hend)]
    exact ⟨rfl, rfl, rfl, fun _ => rfl⟩
  have hgoes (p : ℚ) (hin : start ≤ p ∧ p ≤ stop) :
      advancePosition p direction behavior start stop e false =
        advanceToEnd p direction start stop e := by
    rw [advancePosition_moving _ _ hin hspan he]
    rcases hbeh with rfl | rfl
    · rfl
    · rfl
  cases direction with
  | forward =>
    by_cases hreach : stop ≤ position + d
    · have hlater : stop ≤ position + (d + e) := by linarith
      simp only [advanceToEnd, if_pos hreach, if_pos hlater] at hfst ⊢
      exact hrest ⟨stop, .forward, true, 1⟩ rfl hfst rfl
    · simp only [advanceToEnd, if_neg hreach] at hfst ⊢
      rw [hgoes _ hfst]
      simp only [advanceToEnd, add_assoc]
      refine ⟨rfl, rfl, rfl, fun _ => zero_add _⟩
  | reverse =>
    by_cases hreach : position - d ≤ start
    · have hlater : position - (d + e) ≤ start := by linarith
      simp only [advanceToEnd, if_pos hreach, if_pos hlater] at hfst ⊢
      exact hrest ⟨start, .reverse, true, 1⟩ rfl hfst rfl
    · simp only [advanceToEnd, if_neg hreach] at hfst ⊢
      rw [hgoes _ hfst]
      simp only [advanceToEnd, sub_sub]
      refine ⟨rfl, rfl, rfl, fun _ => zero_add _⟩

theorem advancePosition_slices (direction : PlaybackDirection) (behavior : EndBehavior)
    (completed : Bool) (hmem : start ≤ position ∧ position ≤ stop) (hd : 0 ≤ d) (he : 0 ≤ e) :
    let first := advancePosition position direction behavior start stop d completed
    Slices first
      (advancePosition first.position first.direction behavior start stop e first.completed)
      (advancePosition position direction behavior start stop (d + e) completed) := by
  intro first
  have hin : start ≤ first.position ∧ first.position ≤ stop := advancePosition_mem _ _ _ hmem hd
  by_cases hcomp : completed = true
  · have hfst : first = ⟨position, direction, completed, 0⟩ :=
      advancePosition_rest hmem (.inr hcomp)
    rw [hfst, advancePosition_rest hmem (.inr hcomp), advancePosition_rest hmem (.inr hcomp)]
    exact ⟨rfl, rfl, rfl, fun _ => rfl⟩
  obtain rfl : completed = false := Bool.eq_false_of_not_eq_true hcomp
  rcases hd.eq_or_lt with hzero | hd
  · have hfst : first = ⟨position, direction, false, 0⟩ := advancePosition_rest hmem (.inl hzero.ge)
    rw [hfst, ← hzero, zero_add]
    exact ⟨rfl, rfl, rfl, fun _ => zero_add _⟩
  rcases he.eq_or_lt with hzero | he
  · rw [← hzero, add_zero, advancePosition_rest hin (.inl (le_refl 0))]
    exact ⟨rfl, rfl, rfl, fun _ => add_zero _⟩
  by_cases hspan : 0 < stop - start
  · have hwhole := advancePosition_moving direction behavior hmem hspan (add_pos hd he)
    have hfst : first = _ := advancePosition_moving _ _ hmem hspan hd
    rw [hwhole]
    cases behavior with
    | loop =>
      have hsnd := advancePosition_moving direction .loop hin hspan he
      rw [hfst] at hsnd ⊢
      have hrun : (advanceLoop position direction start stop d).completed = false := by
        cases direction <;> rfl
      have hdir : (advanceLoop position direction start stop d).direction = direction := by
        cases direction <;> rfl
      simp only [hrun, hdir, hsnd]
      exact advanceLoop_slices hspan hmem hd.le he.le
    | pingPong =>
      have hsnd := advancePosition_moving first.direction .pingPong hin hspan he
      rw [hfst] at hsnd ⊢
      have hrun : (advancePingPong position direction start stop d).completed = false := by
        rw [advancePingPong_eq]
      simp only [hrun, hsnd]
      exact advancePingPong_slices hspan hd.le he.le
    | oneShot =>
      rw [hfst]
      exact advanceToEnd_slices hmem hspan hd he (.inl rfl)
    | hold =>
      rw [hfst]
      exact advanceToEnd_slices hmem hspan hd he (.inr rfl)
  · obtain ⟨ended, hfst, hother⟩ := advancePosition_point position direction
      behavior (not_lt.mp hspan) hd
    have hfst : first = ⟨start, direction, ended, ended.toNat⟩ := hfst
    rw [hfst] at hin ⊢
    rw [hother _ _ (add_pos hd he)]
    cases ended with
    | true =>
      rw [advancePosition_rest hin (.inr rfl)]
      exact ⟨rfl, rfl, rfl, fun _ => rfl⟩
    | false =>
      rw [hother _ _ he]
      exact ⟨rfl, rfl, rfl, fun _ => rfl⟩

/-- The endpoint rule of the ping-pong law changes nothing. -/
def Aligned (behavior : EndBehavior) (direction : PlaybackDirection)
    (position start stop : ℚ) : Prop :=
  behavior = .pingPong →
    normalizePingPongEndpointDirection direction position start stop = direction

theorem aligned_normalize (behavior : EndBehavior)
    (direction : PlaybackDirection) (position start stop : ℚ) :
    Aligned behavior (normalizePingPongEndpointDirection direction position start stop)
      position start stop := by
  intro _
  unfold normalizePingPongEndpointDirection
  by_cases hpoint : stop ≤ start
  · simp only [if_pos hpoint]
  simp only [if_neg hpoint]
  have hne : start ≠ stop := (not_le.mp hpoint).ne
  by_cases hstart : position = start
  · cases direction <;> simp [hstart, hne]
  · cases direction <;> simp [hstart]

theorem advancePosition_aligned (completed : Bool) (hmem : start ≤ position ∧ position ≤ stop)
    (haligned : Aligned behavior direction position start stop) :
    Aligned behavior (advancePosition position direction behavior start stop d completed).direction
      (advancePosition position direction behavior start stop d completed).position start stop := by
  by_cases hrest : d ≤ 0 ∨ completed = true
  · rw [advancePosition_rest hmem hrest]
    exact haligned
  intro hbeh
  subst hbeh
  obtain ⟨hmoves, hrun⟩ := not_or.mp hrest
  rw [Bool.eq_false_of_not_eq_true hrun]
  by_cases hspan : 0 < stop - start
  · rw [advancePosition_moving _ _ hmem hspan (not_le.mp hmoves), advancePingPong_eq]
    dsimp only
    have hpos : 0 < 2 * (stop - start) := by linarith
    have hnonneg := remEuclid_nonneg
      (x := pingPongPhase (stop - start) (position - start) direction + d) hpos
    have hlt := remEuclid_lt
      (x := pingPongPhase (stop - start) (position - start) direction + d) hpos
    revert hnonneg hlt
    generalize remEuclid _ (2 * (stop - start)) = folded
    intro hnonneg hlt
    unfold normalizePingPongEndpointDirection reflect pingPongDirection
    rw [if_neg (by linarith : ¬stop ≤ start)]
    by_cases hfwd : folded < stop - start
    · rw [if_pos hfwd, if_pos hfwd.le, if_neg (by simp), if_neg (fun h => by linarith [h.1])]
    · rw [if_neg hfwd]
      have hinside : start + (if folded ≤ stop - start then folded
          else 2 * (stop - start) - folded) ≠ start := by
        intro hsame
        split at hsame
        · linarith
        · linarith
      rw [if_neg (fun h => hinside h.1), if_neg (fun h => nomatch h.2)]
  · have hpoint : stop ≤ start := by linarith [not_lt.mp hspan]
    exact if_pos hpoint

end

theorem totalBeats_pos {grid : ClipBeatGrid} {duration beats : ℚ}
    (h : grid.totalBeats duration = some beats) : 0 < beats := by
  have hclamp (value : ℚ) : 0 < clamp value minBeatLength maxBeatLength :=
    lt_of_lt_of_le (by norm_num [minBeatLength]) (le_clamp _ _ _)
  unfold ClipBeatGrid.totalBeats ClipBeatGrid.sanitized at h
  dsimp only at h
  split at h
  · rename_i known hknown
    cases h
    obtain ⟨authored, -, hauth⟩ := bind_eq_some_iff.mp hknown
    split at hauth
    · cases hauth
      exact hclamp authored
    · cases hauth
  · split at h
    · cases h
      exact hclamp _
    · cases h

section

variable {config : ClipTransportConfig} {duration d₁ d₂ b₁ b₂ : ℚ}

theorem travel_nonneg (duration : ℚ) (hrate : 0 ≤ config.rate) (hd : 0 ≤ d₁) (hb : 0 ≤ b₁) :
    0 ≤ travel config duration d₁ b₁ := by
  have hsecs : 0 ≤ if 0 < duration then d₁ * config.rate / duration
      else 0 := by
    by_cases hduration : 0 < duration
    · rw [if_pos hduration]
      exact div_nonneg (mul_nonneg hd hrate) hduration.le
    · rw [if_neg hduration]
  unfold travel
  cases config.beatGrid with
  | none => exact hsecs
  | some grid =>
    dsimp only
    by_cases hsync : grid.syncToProgram = true
    · rw [if_pos hsync]
      cases hbeats : grid.totalBeats duration with
      | none => exact le_refl 0
      | some beats => exact div_nonneg (mul_nonneg hb hrate) (totalBeats_pos hbeats).le
    · rw [if_neg hsync]
      exact hsecs

theorem travel_add :
    travel config duration (d₁ + d₂) (b₁ + b₂) =
      travel config duration d₁ b₁ + travel config duration d₂ b₂ := by
  have hsecs : (if 0 < duration then (d₁ + d₂) * config.rate / duration
      else 0) =
      (if 0 < duration then d₁ * config.rate / duration else 0) +
        if 0 < duration then d₂ * config.rate / duration else 0 := by
    by_cases hduration : 0 < duration
    · simp only [if_pos hduration]
      ring
    · simp [if_neg hduration]
  unfold travel
  cases config.beatGrid with
  | none => exact hsecs
  | some grid =>
    by_cases hsync : grid.syncToProgram = true
    · simp only [if_pos hsync]
      cases grid.totalBeats duration with
      | none => exact (add_zero 0).symm
      | some beats => ring
    · simp only [if_neg hsync]
      exact hsecs

def ClipTransportConfig.synced (config : ClipTransportConfig) : Bool :=
  config.beatGrid.any (·.syncToProgram)

theorem travel_unsynced (h : config.synced = false) (b : ℚ) :
    travel config duration d₁ b = travel config duration d₁ 0 := by
  unfold travel
  cases hgrid : config.beatGrid with
  | none => rfl
  | some grid =>
    have hsync : grid.syncToProgram = false := by
      rwa [ClipTransportConfig.synced, hgrid, any_some] at h
    simp [hsync]

theorem normalizedDistance_add (hrate : 0 ≤ config.rate) (hd₁ : 0 ≤ d₁)
    (hd₂ : 0 ≤ d₂) (hb₁ : 0 ≤ b₁) (hb₂ : 0 ≤ b₂)
    (hlim : travel config duration (d₁ + d₂) (b₁ + b₂) ≤ maxNormalizedTravel) :
    normalizedDistance config duration (d₁ + d₂) (b₁ + b₂) =
      normalizedDistance config duration d₁ b₁ + normalizedDistance config duration d₂ b₂ := by
  have hfst := travel_nonneg duration hrate hd₁ hb₁
  have hsnd := travel_nonneg duration hrate hd₂ hb₂
  rw [travel_add] at hlim
  unfold normalizedDistance
  rw [travel_add, clamp_of_mem (add_nonneg hfst hsnd) hlim,
    clamp_of_mem hfst (by linarith), clamp_of_mem hsnd (by linarith)]

theorem normalizedDistance_nonneg (config : ClipTransportConfig)
    (duration d b : ℚ) : 0 ≤ normalizedDistance config duration d b :=
  le_clamp _ _ _

end

theorem sanitized_rate_nonneg (config : ClipTransportConfig) : 0 ≤ config.sanitized.rate :=
  le_clamp _ _ _

theorem sanitized_synced (config : ClipTransportConfig) :
    config.sanitized.synced = config.synced := by
  unfold ClipTransportConfig.synced ClipTransportConfig.sanitized
  cases config.beatGrid with
  | none | some grid => rfl

theorem effectiveRange_mem (config : ClipTransportConfig) (duration : ℚ) :
    0 ≤ (effectiveRange config.sanitized duration).1 ∧
      (effectiveRange config.sanitized duration).1 ≤ (effectiveRange config.sanitized duration).2 ∧
      (effectiveRange config.sanitized duration).2 ≤ 1 := by
  have hbase : 0 ≤ config.sanitized.inPoint.val ∧
      config.sanitized.inPoint.val ≤ config.sanitized.outPoint.val ∧
      config.sanitized.outPoint.val ≤ 1 :=
    ⟨config.sanitized.inPoint.property.1, min_le_max, config.sanitized.outPoint.property.2⟩
  unfold effectiveRange
  dsimp only
  split
  · exact hbase
  split
  · exact hbase
  split
  · rename_i hord
    exact ⟨hbase.1.trans (le_max_left _ _), hord, (min_le_left _ _).trans hbase.2.2⟩
  · exact hbase

/-- A running tick without a seek, a cue or a discontinuity. -/
structure ProgramTransportTick.Plain (tick : ProgramTransportTick) : Prop where
  programRunning : tick.programRunning = true
  mediaRunning : tick.mediaRunning = true
  programDiscontinuity : tick.programDiscontinuity = false
  seekTo : tick.seekTo = none
  cueId : tick.cueId = none

structure Consistent (config : ClipTransportConfig) (range : ℚ × ℚ)
    (state : ClipTransportState) : Prop where
  initialized : state.initialized = true
  direction_eq : state.configuredDirection = config.direction
  behavior_eq : state.configuredEndBehavior = config.endBehavior
  position_mem : range.1 ≤ state.position.val ∧ state.position.val ≤ range.2
  presented_mem : range.1 ≤ state.presentedPosition.val ∧ state.presentedPosition.val ≤ range.2

def ProgramTransportTick.slice (tick : ProgramTransportTick)
    (deltaSeconds programBeat : ℚ) : ProgramTransportTick :=
  { tick with deltaSeconds := deltaSeconds, programBeat := programBeat }

variable {tick : ProgramTransportTick}

theorem ProgramTransportTick.Plain.slice (h : tick.Plain) (d b : ℚ) : (tick.slice d b).Plain :=
  ⟨h.programRunning, h.mediaRunning, h.programDiscontinuity, h.seekTo, h.cueId⟩

theorem ProgramTransportTick.Plain.sanitized (h : tick.Plain) : tick.sanitized.Plain :=
  ⟨h.programRunning, h.mediaRunning, h.programDiscontinuity, h.seekTo, h.cueId⟩

theorem sanitized_slice {d b : ℚ} (h₀ : 0 ≤ d) (h : d ≤ maxTickSeconds) :
    (tick.slice d b).sanitized = tick.sanitized.slice d b := by
  simp only [ProgramTransportTick.sanitized, ProgramTransportTick.slice, clamp_of_mem h₀ h]

section

variable {config : ClipTransportConfig} {state : ClipTransportState} {tick : ProgramTransportTick}

theorem settle_of_consistent (config : ClipTransportConfig)
    (state : ClipTransportState) (tick : ProgramTransportTick)
    (h : Consistent config (effectiveRange config tick.sourceDurationSeconds)
      state) (hplain : tick.Plain) :
    settle config state tick =
      (state.align config (effectiveRange config tick.sourceDurationSeconds), false, false) := by
  have hbegin : state.begin config
      (effectiveRange config tick.sourceDurationSeconds) = (state, false) :=
    if_pos h.initialized
  have hadopt : state.adopt config = (state, false) := by
    refine if_neg ?_
    rintro (hdir | hbeh)
    · exact hdir h.direction_eq
    · exact hbeh h.behavior_eq
  have hconfine : state.confine
      (effectiveRange config tick.sourceDurationSeconds) = (state, false) := by
    refine if_neg ?_
    rintro (hpos | hpres)
    · exact hpos (clamp_of_mem h.position_mem.1 h.position_mem.2)
    · exact hpres (clamp_of_mem h.presented_mem.1 h.presented_mem.2)
  simp [settle, hbegin, hadopt, hconfine, hplain.seekTo, hplain.cueId,
    hplain.programDiscontinuity, seek]

def motion (config : ClipTransportConfig) (state : ClipTransportState)
    (tick : ProgramTransportTick) : Advance :=
  let range := effectiveRange config tick.sourceDurationSeconds
  advancePosition state.position.val (state.align config range).direction
    config.endBehavior range.1 range.2
    (normalizedDistance config tick.sourceDurationSeconds tick.deltaSeconds
      (state.beatDelta tick).1) state.completed

section

variable (config : ClipTransportConfig) (state : ClipTransportState) (range : ℚ × ℚ)

theorem align_fields :
    ∃ direction, state.align config range = { state with direction := direction } := by
  unfold align
  split
  · exact ⟨_, rfl⟩
  · exact ⟨state.direction, rfl⟩

theorem aligned_align :
    Aligned config.endBehavior (state.align config range).direction
      state.position.val range.1 range.2 := by
  unfold align
  by_cases hpingPong : config.endBehavior = .pingPong
  · rw [if_pos hpingPong]
    exact aligned_normalize _ _ _ _ _
  · intro hbeh
    exact absurd hbeh hpingPong

end

variable {range : ℚ × ℚ}

theorem align_of_aligned
    (h : Aligned config.endBehavior state.direction state.position.val range.1
      range.2) : state.align config range = state := by
  unfold align
  by_cases hpingPong : config.endBehavior = .pingPong
  · rw [if_pos hpingPong, h hpingPong]
  · rw [if_neg hpingPong]

structure Moved (config : ClipTransportConfig) (range : ℚ × ℚ)
    (state : ClipTransportState) (tick : ProgramTransportTick)
    (advance : Advance) (result : ClipTransportState × FrameSelection) :
    Prop where
  consistent : Consistent config range result.1
  aligned : result.1.align config range = result.1
  position_eq : result.1.position = .clamped advance.position
  position_val : result.1.position.val = advance.position
  direction_eq : result.1.direction = advance.direction
  completed_eq : result.1.completed = advance.completed
  generation_eq : result.1.generation = saturatingAddU64 state.generation advance.boundaryEvents
  lastProgramBeat_eq : result.1.lastProgramBeat = some tick.programBeat
  events_eq : result.2.boundaryEvents = advance.boundaryEvents

theorem move_moved (config : ClipTransportConfig) (state : ClipTransportState)
    (tick : ProgramTransportTick) (hrng : effectiveRange config tick.sourceDurationSeconds = range)
    (hinside : 0 ≤ range.1 ∧ range.2 ≤ 1) (h : Consistent config range state) (hplain : tick.Plain)
    (hbeat : (state.beatDelta tick).2 = false) :
    Moved config range state tick (motion config state tick)
      (move config (state.align config range) tick false false) := by
  have hmem := advancePosition_mem (state.align config range).direction
    config.endBehavior state.completed h.position_mem
    (normalizedDistance_nonneg config tick.sourceDurationSeconds
      tick.deltaSeconds (state.beatDelta tick).1)
  have haligned := advancePosition_aligned state.completed
    (d := normalizedDistance config tick.sourceDurationSeconds
      tick.deltaSeconds (state.beatDelta tick).1) h.position_mem
    (aligned_align config state range)
  have hmotion : motion config state tick =
      advancePosition state.position.val (state.align config range).direction
        config.endBehavior range.1 range.2
        (normalizedDistance config tick.sourceDurationSeconds
          tick.deltaSeconds (state.beatDelta tick).1) state.completed := by
    rw [motion, hrng]
  rw [← hmotion] at hmem haligned
  obtain ⟨direction, halign⟩ := align_fields config state range
  rw [halign] at hmotion
  have hadvance : advancePosition state.position.val direction config.endBehavior range.1 range.2
      (if (!state.completed) = true then
        normalizedDistance config tick.sourceDurationSeconds tick.deltaSeconds
          (state.beatDelta tick).1
      else 0) state.completed = motion config state tick := by
    rw [hmotion]
    cases hcomp : state.completed with
    | true =>
      rw [advancePosition_rest h.position_mem (.inr rfl),
        advancePosition_rest h.position_mem (.inr rfl)]
    | false => rfl
  have hval : (clamped (motion config state tick).position).val =
      (motion config state tick).position :=
    clamped_val (hinside.1.trans hmem.1) (hmem.2.trans hinside.2)
  have hpres (due : Bool) :
      range.1 ≤ (if due = true then
          clamped (motion config state tick).position
        else state.presentedPosition).val ∧
      (if due = true then
          clamped (motion config state tick).position
        else state.presentedPosition).val ≤ range.2 := by
    cases due with
    | true =>
      rw [if_pos rfl, hval]
      exact hmem
    | false => exact h.presented_mem
  have hsame : ({ state with direction := direction }).beatDelta tick = state.beatDelta tick := rfl
  simp only [move, halign, hrng, hsame, hbeat, hplain.programRunning,
    hplain.mediaRunning, hplain.programDiscontinuity, Bool.not_false,
    Bool.and_self, Bool.true_and, Bool.or_self, hadvance]
  refine ⟨⟨h.initialized, h.direction_eq, h.behavior_eq, ?_, ?_⟩, ?_, rfl,
    hval, rfl, rfl, ?_, rfl, rfl⟩
  · rw [hval]
    exact hmem
  · exact hpres _
  · apply align_of_aligned
    rw [hval]
    exact haligned
  · simp only [saturatingAddU64, Bool.toNat_false, zero_add]
    omega

def sourceRange (config : ClipTransportConfig) (tick : ProgramTransportTick) : ℚ × ℚ :=
  effectiveRange config.sanitized (sanitizeDuration tick.sourceDurationSeconds)

/-- `select` moves a consistent state by the motion of the sanitized tick. -/
theorem select_moved (tick : ProgramTransportTick)
    (h : Consistent config.sanitized (sourceRange config tick) state)
    (hplain : tick.Plain) (hbeat : (state.beatDelta tick).2 = false) :
    Moved config.sanitized (sourceRange config tick) state tick
      (motion config.sanitized state tick.sanitized)
      (select config state tick) := by
  obtain ⟨hstart, -, hstop⟩ := effectiveRange_mem config
    (sanitizeDuration tick.sourceDurationSeconds)
  have hcons : Consistent config.sanitized (sourceRange config tick)
      state.sanitized :=
    ⟨h.initialized, h.direction_eq, h.behavior_eq, h.position_mem, h.presented_mem⟩
  have hplain' := hplain.sanitized
  have hdir (range : ℚ × ℚ) :
      (state.sanitized.align config.sanitized range).direction =
        (state.align config.sanitized range).direction := by
    unfold align
    split
    · rfl
    · rfl
  have hmotion : motion config.sanitized state.sanitized tick.sanitized =
      motion config.sanitized state tick.sanitized := by
    simp only [motion, hdir]
    rfl
  have hmoved := move_moved config.sanitized state.sanitized tick.sanitized
    rfl ⟨hstart, hstop⟩ hcons hplain' hbeat
  have hset := settle_of_consistent config.sanitized state.sanitized tick.sanitized hcons hplain'
  rw [hmotion] at hmoved
  unfold select
  simp only [hset]
  obtain ⟨h₁, h₂, h₃, h₄, h₅, h₆, h₇, h₈, h₉⟩ := hmoved
  exact ⟨h₁, h₂, h₃, h₄, h₅, h₆, h₇, h₈, h₉⟩

theorem beatDelta_snd (hlast : ∀ p, state.lastProgramBeat = some p → p ≤ tick.programBeat) :
    (state.beatDelta tick).2 = false := by
  unfold beatDelta
  cases hprev : state.lastProgramBeat with
  | none => rfl
  | some previous =>
    have hle := hlast previous hprev
    dsimp only
    rw [if_neg (by linarith)]
    split
    · rfl
    · rfl

theorem beatDelta_of_le (hplain : tick.Plain) {previous : ℚ}
    (hlast : state.lastProgramBeat = some previous) (hle : previous ≤ tick.programBeat)
    (hcap : tick.programBeat - previous ≤ maxBeatDelta) :
    (state.beatDelta tick).1 = tick.programBeat - previous := by
  simp only [beatDelta, hlast, hplain.programRunning,
    hplain.programDiscontinuity, Bool.not_false, Bool.and_self, if_true]
  rw [if_neg (by linarith)]
  exact min_eq_left hcap

/-- Two slices of a tick, in order, that reach no cap on seconds, beats or
travel. -/
structure WithinCaps (config : ClipTransportConfig) (state : ClipTransportState)
    (tick : ProgramTransportTick) (d₁ d₂ b₁ b₂ : ℚ) : Prop where
  seconds_nonneg : 0 ≤ d₁ ∧ 0 ≤ d₂
  seconds_le : d₁ + d₂ ≤ maxTickSeconds
  beats_ordered : b₁ ≤ b₂ ∧ ∀ p, state.lastProgramBeat = some p → p ≤ b₁
  beats_le : ∀ p, state.lastProgramBeat = some p → b₂ - p ≤ maxBeatDelta
  travel_le : travel config.sanitized (sanitizeDuration tick.sourceDurationSeconds) (d₁ + d₂)
    ((state.lastProgramBeat.map (b₂ - ·)).getD 0) ≤ maxNormalizedTravel

theorem WithinCaps.distance_add {d₁ d₂ b₁ b₂ : ℚ} (h : WithinCaps config state tick d₁ d₂ b₁ b₂)
    (hplain : tick.Plain) (hobs : state.lastProgramBeat = none → config.synced = false)
    {next : ClipTransportState} (hnext : next.lastProgramBeat = some b₁) :
    normalizedDistance config.sanitized (sanitizeDuration tick.sourceDurationSeconds) (d₁ + d₂)
        (state.beatDelta (tick.sanitized.slice (d₁ + d₂) b₂)).1 =
      normalizedDistance config.sanitized (sanitizeDuration tick.sourceDurationSeconds) d₁
          (state.beatDelta (tick.sanitized.slice d₁ b₁)).1 +
        normalizedDistance config.sanitized (sanitizeDuration tick.sourceDurationSeconds) d₂
          (next.beatDelta (tick.sanitized.slice d₂ b₂)).1 := by
  have hplain' (d b : ℚ) : (tick.sanitized.slice d b).Plain := hplain.sanitized.slice d b
  have hrate := sanitized_rate_nonneg config
  have htravel := h.travel_le
  cases hlast : state.lastProgramBeat with
  | none =>
    have hunsynced : config.sanitized.synced = false := by
      rw [sanitized_synced]
      exact hobs hlast
    have hany (d b : ℚ) : normalizedDistance config.sanitized
        (sanitizeDuration tick.sourceDurationSeconds) d b =
        normalizedDistance config.sanitized
          (sanitizeDuration tick.sourceDurationSeconds) d (0 + 0) := by
      unfold normalizedDistance
      rw [travel_unsynced hunsynced, add_zero]
    rw [travel_unsynced hunsynced, ← add_zero (0 : ℚ)] at htravel
    rw [hany, normalizedDistance_add hrate h.seconds_nonneg.1
      h.seconds_nonneg.2 (le_refl 0) (le_refl 0) htravel,
      hany d₁ (state.beatDelta _).1, hany d₂ (next.beatDelta _).1, add_zero]
  | some previous =>
    have hfst := h.beats_ordered.2 previous hlast
    have hcap := h.beats_le previous hlast
    have hsnd := h.beats_ordered.1
    have hbeats : b₂ - previous = (b₁ - previous) + (b₂ - b₁) := by ring
    rw [hlast, map_some, getD_some, hbeats] at htravel
    rw [beatDelta_of_le (hplain' _ _) hlast (hfst.trans hsnd) hcap,
      beatDelta_of_le (hplain' _ _) hlast hfst ((sub_le_sub_right hsnd previous).trans hcap),
      beatDelta_of_le (hplain' _ _) hnext hsnd ((sub_le_sub_left hfst b₂).trans hcap)]
    simp only [ProgramTransportTick.slice, hbeats]
    exact normalizedDistance_add hrate h.seconds_nonneg.1
      h.seconds_nonneg.2 (sub_nonneg.mpr hfst) (sub_nonneg.mpr hsnd)
      htravel

theorem saturatingAddU64_assoc (a b c : ℕ) :
    saturatingAddU64 (saturatingAddU64 a b) c = saturatingAddU64 a (b + c) := by
  unfold saturatingAddU64
  omega

/-- Below the caps, a tick moves a clip like two successive ticks over its
slices: to the same position, direction, completion and generation, with the
boundary events of both.  A clip that follows the program beat must have
observed it before, since its first tick only anchors the beat. -/
theorem select_slices {d₁ d₂ b₁ b₂ : ℚ}
    (hconsistent : Consistent config.sanitized (sourceRange config tick) state)
    (hplain : tick.Plain) (hobserved : state.lastProgramBeat = none → config.synced = false)
    (hcaps : WithinCaps config state tick d₁ d₂ b₁ b₂)
    (hevents : (select config state (tick.slice (d₁ + d₂) b₂)).2.boundaryEvents < u32Max) :
    let first := select config state (tick.slice d₁ b₁)
    let second := select config first.1 (tick.slice d₂ b₂)
    let whole := select config state (tick.slice (d₁ + d₂) b₂)
    second.1.position = whole.1.position ∧
      second.1.direction = whole.1.direction ∧
      second.1.completed = whole.1.completed ∧
      second.1.generation = whole.1.generation ∧
      first.2.boundaryEvents + second.2.boundaryEvents = whole.2.boundaryEvents := by
  intro first second whole
  obtain ⟨hd₁, hd₂⟩ := hcaps.seconds_nonneg
  obtain ⟨hordered, hprevious⟩ := hcaps.beats_ordered
  have hseconds := hcaps.seconds_le
  have hfirst := select_moved (tick.slice d₁ b₁) hconsistent
    (hplain.slice d₁ b₁) (beatDelta_snd hprevious)
  have hsecond := select_moved (tick.slice d₂ b₂) hfirst.consistent
    (hplain.slice d₂ b₂) (beatDelta_snd fun p hp => by
      rw [← some.inj hp]
      exact hordered)
  have hwhole := select_moved (tick.slice (d₁ + d₂) b₂) hconsistent (hplain.slice (d₁ + d₂) b₂)
    (beatDelta_snd fun p hp => (hprevious p hp).trans hordered)
  have hdistance := hcaps.distance_add hplain hobserved hfirst.lastProgramBeat_eq
  rw [sanitized_slice hd₁ (by linarith)] at hfirst
  rw [sanitized_slice hd₂ (by linarith)] at hsecond
  rw [sanitized_slice (add_nonneg hd₁ hd₂) hseconds] at hwhole
  have hslices : Slices (motion config.sanitized state (tick.sanitized.slice d₁ b₁))
      (motion config.sanitized first.1 (tick.sanitized.slice d₂ b₂))
      (motion config.sanitized state (tick.sanitized.slice (d₁ + d₂) b₂)) := by
    have hslices := advancePosition_slices
      (state.align config.sanitized (sourceRange config tick)).direction
      config.sanitized.endBehavior state.completed hconsistent.position_mem
      (normalizedDistance_nonneg config.sanitized (sanitizeDuration tick.sourceDurationSeconds) d₁
        (state.beatDelta (tick.sanitized.slice d₁ b₁)).1)
      (normalizedDistance_nonneg config.sanitized (sanitizeDuration tick.sourceDurationSeconds) d₂
        (first.1.beatDelta (tick.sanitized.slice d₂ b₂)).1)
    rw [← hdistance] at hslices
    have hnext : motion config.sanitized first.1 (tick.sanitized.slice d₂ b₂) =
        advancePosition first.1.position.val first.1.direction
          config.sanitized.endBehavior (sourceRange config tick).1
          (sourceRange config tick).2
          (normalizedDistance config.sanitized (sanitizeDuration tick.sourceDurationSeconds) d₂
            (first.1.beatDelta (tick.sanitized.slice d₂ b₂)).1)
          first.1.completed := by
      have haligned : first.1.align config.sanitized
          (sourceRange config tick) = first.1 := hfirst.aligned
      change advancePosition first.1.position.val
        (first.1.align config.sanitized (sourceRange config tick)).direction
        _ _ _ _ _ = _
      rw [haligned]
      rfl
    rw [hnext, hfirst.position_val, hfirst.direction_eq, hfirst.completed_eq]
    exact hslices
  have hcount : whole.2.boundaryEvents < u32Max := hevents
  rw [hwhole.events_eq] at hcount
  have hsum := hslices.events_eq hcount
  refine ⟨?_, ?_, ?_, ?_, ?_⟩
  · rw [hsecond.position_eq, hwhole.position_eq, hslices.position_eq]
  · rw [hsecond.direction_eq, hwhole.direction_eq, hslices.direction_eq]
  · rw [hsecond.completed_eq, hwhole.completed_eq, hslices.completed_eq]
  · rw [hsecond.generation_eq, hfirst.generation_eq, hwhole.generation_eq,
      saturatingAddU64_assoc, hsum]
  · rw [hfirst.events_eq, hsecond.events_eq, hwhole.events_eq, hsum]

end

def fourBeats (behavior : EndBehavior) : ClipTransportConfig :=
  { ClipTransportConfig.default with
    endBehavior := behavior
    beatGrid := some ⟨120, some 4, true⟩ }

def fourBeatsStart (behavior : EndBehavior) (beat : Option ℚ) : ClipTransportState :=
  { ClipTransportState.atPosition ClipTransportConfig.default.inPoint
      .forward with
    configuredEndBehavior := behavior
    lastProgramBeat := beat }

def plainTick : ProgramTransportTick := ⟨0, 0, true, true, false, 2, 100, none, none⟩

theorem plainTick_plain : plainTick.Plain := ⟨rfl, rfl, rfl, rfl, rfl⟩

/-- One beat and five more reflect a ping-pong clip of four beats once. -/
theorem select_slices_fourBeats :
    (select (fourBeats .pingPong) (select (fourBeats .pingPong)
        (fourBeatsStart .pingPong (some 0)) (plainTick.slice 0 1)).1
        (plainTick.slice 0 6)).1.position =
      (select (fourBeats .pingPong) (fourBeatsStart .pingPong (some 0))
        (plainTick.slice (0 + 0) 6)).1.position ∧
    (select (fourBeats .pingPong) (fourBeatsStart .pingPong (some 0))
      (plainTick.slice (0 + 0) 6)).1.position.val = 1 / 2 ∧
    (select (fourBeats .pingPong) (fourBeatsStart .pingPong (some 0))
      (plainTick.slice (0 + 0) 6)).2.boundaryEvents = 1 := by
  have hconsistent : Consistent (fourBeats .pingPong).sanitized
      (sourceRange (fourBeats .pingPong) plainTick)
      (fourBeatsStart .pingPong (some 0)) :=
    ⟨rfl, rfl, rfl, by decide +kernel, by decide +kernel⟩
  have hcaps : WithinCaps (fourBeats .pingPong)
      (fourBeatsStart .pingPong (some 0)) plainTick 0 0 1 6 := by
    refine ⟨by decide +kernel, by decide +kernel, ⟨by decide +kernel, ?_⟩, ?_,
      by decide +kernel⟩
    · intro p hp
      rw [← some.inj hp]
      exact zero_le_one
    · intro p hp
      rw [← some.inj hp]
      decide +kernel
  have hslices := select_slices hconsistent plainTick_plain nofun hcaps (by decide +kernel)
  exact ⟨hslices.1, by decide +kernel, by decide +kernel⟩

/-- Without an observed beat the first slice only anchors the beat, so the
second one moves the clip and the whole tick does not. -/
theorem select_slices_unobserved :
    ∃ config state tick d₁ d₂ b₁ b₂, config.sampleFps = none ∧
      Consistent config.sanitized (sourceRange config tick) state ∧
      tick.Plain ∧ WithinCaps config state tick d₁ d₂ b₁ b₂ ∧
      (select config state (tick.slice (d₁ + d₂) b₂)).2.boundaryEvents < u32Max ∧
      (select config (select config state (tick.slice d₁ b₁)).1 (tick.slice d₂ b₂)).1.position ≠
        (select config state (tick.slice (d₁ + d₂) b₂)).1.position := by
  refine ⟨fourBeats .loop, fourBeatsStart .loop none, plainTick, 0, 0, 1, 2,
    rfl, ⟨rfl, rfl, rfl, by decide +kernel, by decide +kernel⟩,
    plainTick_plain, ⟨by decide +kernel, by decide +kernel,
      ⟨by decide +kernel, nofun⟩, nofun, by decide +kernel⟩,
    by decide +kernel, by decide +kernel⟩

end CollideOScope.Transport
