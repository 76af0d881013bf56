import CollideOScope.Transport.Slicing

/-!
# One-shot clips show their terminal frame once

A run starts from the default state and may change the configuration before
every tick.  The motion latches completion; a seek, a resolved cue, a change of
the authored law and a moved position are the only events that release it.
-/

namespace CollideOScope.Transport

open NormalizedTime Nat ClipTransportState

theorem NormalizedTime.clamped_self (time : NormalizedTime) : clamped time.val = time :=
  Subtype.ext (clamped_val time.property.1 time.property.2)

/-- The boundary of a range at which a clip of the given direction ends. -/
def terminal (range : ℚ × ℚ) : PlaybackDirection → ℚ
  | .forward => range.2
  | .reverse => range.1

section

variable {position start stop d : ℚ} {direction : PlaybackDirection}
  {behavior : EndBehavior} {completed : Bool}

theorem advancePosition_oneShot_event
    (hmem : start ≤ position ∧ position ≤ stop)
    (hev : 0 < (advancePosition position direction .oneShot start stop d
      completed).boundaryEvents) :
    completed = false ∧
      advancePosition position direction .oneShot start stop d completed =
        ⟨terminal (start, stop) direction, direction, true, 1⟩ := by
  by_cases hrest : d ≤ 0 ∨ completed = true
  · rw [advancePosition_rest hmem hrest] at hev
    exact absurd hev (lt_irrefl 0)
  obtain ⟨hmoves, hrun⟩ := not_or.mp hrest
  obtain rfl := Bool.eq_false_of_not_eq_true hrun
  refine ⟨rfl, ?_⟩
  by_cases hspan : 0 < stop - start
  · rw [advancePosition_moving _ _ hmem hspan (not_le.mp hmoves)] at hev ⊢
    cases direction with
    | forward =>
      by_cases hreach : stop ≤ position + d
      · simp only [advanceToEnd, if_pos hreach, terminal]
      · simp only [advanceToEnd, if_neg hreach, lt_irrefl] at hev
    | reverse =>
      by_cases hreach : position - d ≤ start
      · simp only [advanceToEnd, if_pos hreach, terminal]
      · simp only [advanceToEnd, if_neg hreach, lt_irrefl] at hev
  · have hpoint : start = stop :=
      le_antisymm (hmem.1.trans hmem.2) (sub_nonpos.mp (not_lt.mp hspan))
    rw [advancePosition, if_neg hrest, if_pos (not_lt.mp hspan)]
    cases direction with
    | forward => simp [terminal, hpoint]
    | reverse => simp [terminal]

theorem advancePosition_oneShot_direction :
    (advancePosition position direction .oneShot start stop d completed).direction = direction := by
  unfold advancePosition
  split
  · rfl
  split
  · rfl
  cases direction with
  | forward | reverse =>
    simp only [advanceToEnd]
    split
    · rfl
    · rfl

theorem advanceLoop_completed :
    (advanceLoop position direction start stop d).completed = false := by
  cases direction with
  | forward | reverse => rfl

theorem advancePingPong_completed :
    (advancePingPong position direction start stop d).completed = false := by
  rw [advancePingPong_eq]

theorem advanceToEnd_event (h : (advanceToEnd position direction start stop d).completed = true) :
    0 < (advanceToEnd position direction start stop d).boundaryEvents := by
  cases direction with
  | forward =>
    by_cases hreach : stop ≤ position + d
    · simp [advanceToEnd, if_pos hreach]
    · simp only [advanceToEnd, if_neg hreach, Bool.false_eq_true] at h
  | reverse =>
    by_cases hreach : position - d ≤ start
    · simp only [advanceToEnd, if_pos hreach, zero_lt_one]
    · simp only [advanceToEnd, if_neg hreach, Bool.false_eq_true] at h

theorem advancePosition_completed (hmem : start ≤ position ∧ position ≤ stop)
    (h : (advancePosition position direction behavior start stop d completed).completed = true) :
    completed = true ∨ 0 < (advancePosition position direction behavior start
      stop d completed).boundaryEvents := by
  by_cases hrest : d ≤ 0 ∨ completed = true
  · rw [advancePosition_rest hmem hrest] at h
    exact .inl h
  refine .inr ?_
  obtain ⟨hmoves, hrun⟩ := not_or.mp hrest
  obtain rfl := Bool.eq_false_of_not_eq_true hrun
  by_cases hspan : 0 < stop - start
  · rw [advancePosition_moving _ _ hmem hspan (not_le.mp hmoves)] at h ⊢
    cases behavior with
    | loop => exact absurd h (ne_true_of_eq_false advanceLoop_completed)
    | pingPong => exact absurd h (ne_true_of_eq_false advancePingPong_completed)
    | oneShot | hold => exact advanceToEnd_event h
  · obtain ⟨ended, hend, -⟩ := advancePosition_point position direction
      behavior (not_lt.mp hspan) (not_le.mp hmoves)
    rw [hend] at h ⊢
    simp only at h
    rw [h]
    exact zero_lt_one

end

structure Authored (config : ClipTransportConfig) (state : ClipTransportState) : Prop where
  initialized : state.initialized = true
  direction_eq : state.configuredDirection = config.direction
  behavior_eq : state.configuredEndBehavior = config.endBehavior

/-- A one-shot clip plays in its authored direction, and a completed clip
presents its logical position. -/
structure Latched (state : ClipTransportState) : Prop where
  directed : state.configuredEndBehavior = .oneShot → state.direction = state.configuredDirection
  presented : state.completed = true → state.presentedPosition = state.position
  generation_le : state.generation ≤ u64Max

theorem latched_default : Latched default :=
  ⟨fun h => (by cases h), fun h => (by cases h), zero_le _⟩

section

variable {config : ClipTransportConfig} {state : ClipTransportState}
  {tick : ProgramTransportTick} {range : ℚ × ℚ}

theorem Latched.begin (h : Latched state) : Latched (state.begin config range).1 := by
  unfold ClipTransportState.begin
  split
  · exact h
  · exact ⟨fun _ => rfl, fun hcomp => (by cases hcomp), h.generation_le⟩

theorem begin_initialized : (state.begin config range).1.initialized = true := by
  unfold begin
  split
  · assumption
  · rfl

theorem Latched.adopt (h : Latched state) : Latched (state.adopt config).1 := by
  unfold ClipTransportState.adopt
  split
  · exact ⟨fun _ => rfl, fun hcomp => (by cases hcomp), h.generation_le⟩
  · exact h

theorem adopt_authored (h : state.initialized = true) : Authored config (state.adopt config).1 := by
  unfold adopt
  split
  · exact ⟨h, rfl, rfl⟩
  · rename_i hsame
    obtain ⟨hdir, hbeh⟩ := not_or.mp hsame
    exact ⟨h, not_not.mp hdir, not_not.mp hbeh⟩

theorem Latched.confine (h : Latched state) : Latched (state.confine range).1 := by
  unfold ClipTransportState.confine
  dsimp only
  split
  · exact ⟨h.directed, fun hcomp => (by cases hcomp), h.generation_le⟩
  · exact h

theorem Authored.confine (h : Authored config state) : Authored config (state.confine range).1 := by
  unfold ClipTransportState.confine
  dsimp only
  split
  · exact ⟨h.initialized, h.direction_eq, h.behavior_eq⟩
  · exact h

def Confined (range : ℚ × ℚ) (state : ClipTransportState) : Prop :=
  (range.1 ≤ state.position.val ∧ state.position.val ≤ range.2) ∧
    range.1 ≤ state.presentedPosition.val ∧
    state.presentedPosition.val ≤ range.2

def UnitRange (range : ℚ × ℚ) : Prop := 0 ≤ range.1 ∧ range.1 ≤ range.2 ∧ range.2 ≤ 1

theorem clamped_clamp_mem (hrng : UnitRange range) (value : ℚ) :
    range.1 ≤ (clamped (clamp value range.1 range.2)).val ∧
      (clamped (clamp value range.1 range.2)).val ≤ range.2 := by
  have hlow := le_clamp value range.1 range.2
  have hhigh : clamp value range.1 range.2 ≤ range.2 := clamp_le hrng.2.1
  rw [clamped_val (hrng.1.trans hlow) (hhigh.trans hrng.2.2)]
  exact ⟨hlow, hhigh⟩

theorem confine_confined (hrng : UnitRange range)
    (state : ClipTransportState) : Confined range (state.confine range).1 := by
  unfold confine
  dsimp only
  split
  · exact ⟨clamped_clamp_mem hrng _, clamped_clamp_mem hrng _⟩
  · rename_i hsame
    obtain ⟨hpos, hpres⟩ := not_or.mp hsame
    have hpos := not_not.mp hpos
    have hpres := not_not.mp hpres
    refine ⟨⟨?_, ?_⟩, ?_, ?_⟩
    · rw [← hpos]
      exact le_clamp _ _ _
    · rw [← hpos]
      exact clamp_le hrng.2.1
    · rw [← hpres]
      exact le_clamp _ _ _
    · rw [← hpres]
      exact clamp_le hrng.2.1

theorem Latched.seek (h : Latched state) (hauth : Authored config state)
    (time : Option NormalizedTime) :
    Latched (state.seek config range time).1 := by
  cases time with
  | none => exact h
  | some time =>
    exact ⟨fun _ => hauth.direction_eq.symm, fun hcomp => (by cases hcomp), h.generation_le⟩

theorem Authored.seek (h : Authored config state) (time : Option NormalizedTime) :
    Authored config (state.seek config range time).1 := by
  cases time with
  | none => exact h
  | some time => exact ⟨h.initialized, h.direction_eq, h.behavior_eq⟩

theorem Confined.seek (h : Confined range state) (hrng : UnitRange range)
    (time : Option NormalizedTime) :
    Confined range (state.seek config range time).1 := by
  cases time with
  | none => exact h
  | some time => exact ⟨clamped_clamp_mem hrng _, clamped_clamp_mem hrng _⟩

theorem Latched.align (h : Latched state) (hauth : Authored config state) :
    Latched (state.align config range) := by
  unfold ClipTransportState.align
  split
  · rename_i hpingPong
    refine ⟨fun honeShot => ?_, h.presented, h.generation_le⟩
    have hbeh := hauth.behavior_eq.symm.trans honeShot
    rw [hpingPong] at hbeh
    cases hbeh
  · exact h

theorem Authored.align (h : Authored config state) :
    Authored config (state.align config range) := by
  obtain ⟨direction, halign⟩ := align_fields config state range
  rw [halign]
  exact ⟨h.initialized, h.direction_eq, h.behavior_eq⟩

theorem Confined.align (h : Confined range state) : Confined range (state.align config range) := by
  obtain ⟨direction, halign⟩ := align_fields config state range
  rw [halign]
  exact h

theorem begin_generation : (state.begin config range).1.generation = state.generation := by
  unfold begin
  split
  · rfl
  · rfl

theorem adopt_generation : (state.adopt config).1.generation = state.generation := by
  unfold adopt
  split
  · rfl
  · rfl

theorem confine_generation : (state.confine range).1.generation = state.generation := by
  unfold confine
  dsimp only
  split
  · rfl
  · rfl

theorem seek_generation (time : Option NormalizedTime) :
    (state.seek config range time).1.generation = state.generation := by
  cases time with
  | none | some time => rfl

theorem align_generation : (state.align config range).generation = state.generation := by
  obtain ⟨direction, halign⟩ := align_fields config state range
  rw [halign]

structure Settled (config : ClipTransportConfig) (range : ℚ × ℚ)
    (state : ClipTransportState) : Prop where
  latched : Latched state
  authored : Authored config state
  confined : Confined range state

variable (config state tick)

theorem settle_settled (h : Latched state)
    (hrng : UnitRange (effectiveRange config tick.sourceDurationSeconds)) :
    Settled config (effectiveRange config tick.sourceDurationSeconds)
      (settle config state tick).1 := by
  unfold settle
  dsimp only
  generalize effectiveRange config tick.sourceDurationSeconds = range at *
  have hbegun : Latched (state.begin config range).1 := h.begin
  have hadopted : Authored config ((state.begin config range).1.adopt config).1 :=
    adopt_authored begin_initialized
  have hconfined := confine_confined hrng ((state.begin config range).1.adopt config).1
  exact ⟨(hbegun.adopt.confine.seek hadopted.confine _).align (hadopted.confine.seek _),
    (hadopted.confine.seek _).align, (hconfined.seek hrng _).align⟩

theorem settle_generation : (settle config state tick).1.generation = state.generation := by
  unfold settle
  dsimp only
  rw [align_generation, seek_generation, confine_generation, adopt_generation, begin_generation]

/-- The time a tick asks for: a seek, or else a resolved cue. -/
def requestedSeek : Option NormalizedTime :=
  tick.seekTo.or (tick.cueId.bind fun id => (config.cue id).map (·.time))

theorem settle_of_completed (h : Latched state)
    (hauth : Authored config state) (hcomp : state.completed = true)
    (hseek : requestedSeek config tick = none)
    (hpos : clamp state.position.val (effectiveRange config tick.sourceDurationSeconds).1
      (effectiveRange config tick.sourceDurationSeconds).2 = state.position.val) :
    (settle config state tick).1 =
      state.align config (effectiveRange config tick.sourceDurationSeconds) := by
  have hbegin : state.begin config
      (effectiveRange config tick.sourceDurationSeconds) = (state, false) :=
    if_pos hauth.initialized
  have hadopt : state.adopt config = (state, false) := by
    refine if_neg ?_
    rintro (hdir | hbeh)
    · exact hdir hauth.direction_eq
    · exact hbeh hauth.behavior_eq
  have hconfine : state.confine
      (effectiveRange config tick.sourceDurationSeconds) = (state, false) := by
    refine if_neg ?_
    rw [h.presented hcomp]
    rintro (hmoved | hmoved)
    · exact hmoved hpos
    · exact hmoved hpos
  have hreq : tick.seekTo.or
      (tick.cueId.bind fun id => (config.cue id).map (·.time)) = none := hseek
  simp only [settle, hbegin, hadopt, hconfine, hreq, seek]

end

structure Latches (config : ClipTransportConfig) (range : ℚ × ℚ) (state : ClipTransportState)
    (result : ClipTransportState × FrameSelection) : Prop where
  latched : Latched result.1
  authored : Authored config result.1
  completed_eq : result.2.completed = result.1.completed
  presented_eq : result.2.normalizedTime = result.1.presentedPosition
  logical_eq : result.2.logicalTime = result.1.position
  generation_eq : result.2.generation = result.1.generation
  generation_le : state.generation ≤ result.1.generation
  ends : config.endBehavior = .oneShot → 0 < result.2.boundaryEvents →
    result.2.boundaryEvents = 1 ∧ result.2.completed = true ∧
      result.2.transparent = false ∧
      result.2.normalizedTime.val = terminal range config.direction
  stays : config.endBehavior = .oneShot → state.completed = true →
    result.2.boundaryEvents = 0 ∧ result.2.completed = true ∧
      result.2.transparent = true ∧
      result.2.normalizedTime = state.presentedPosition

section

variable {config : ClipTransportConfig} {state : ClipTransportState} {tick : ProgramTransportTick}

theorem presented_cases (discontinuity due : Bool) (events : ℕ)
    (position presented : NormalizedTime) :
    (if discontinuity || decide (0 < events) || due then position
        else presented) = position ∨
      events = 0 ∧ (if discontinuity || decide (0 < events) || due then position
        else presented) = presented := by
  by_cases hdue : (discontinuity || decide (0 < events) || due) = true
  · rw [if_pos hdue]
    exact .inl rfl
  · rw [if_neg hdue]
    simp only [Bool.or_eq_true, decide_eq_true_eq, not_or, not_lt, le_zero] at hdue
    exact .inr ⟨hdue.1.2, rfl⟩

theorem move_eq (config : ClipTransportConfig) (state : ClipTransportState)
    (tick : ProgramTransportTick) (discontinuous cueMiss : Bool) :
    ∃ distance increment,
      let range := effectiveRange config tick.sourceDurationSeconds
      let advance := advancePosition state.position.val state.direction
        config.endBehavior range.1 range.2 distance state.completed
      let position := clamped advance.position
      let result := move config state tick discontinuous cueMiss
      0 ≤ distance ∧
      result.1.position = position ∧
      (result.1.presentedPosition = position ∨
        advance.boundaryEvents = 0 ∧ result.1.presentedPosition = state.presentedPosition) ∧
      result.1.direction = advance.direction ∧
      result.1.completed = advance.completed ∧
      result.1.generation = saturatingAddU64 state.generation increment ∧
      result.2.boundaryEvents = advance.boundaryEvents ∧
      result.2.transparent = (decide (config.endBehavior = .oneShot) &&
        advance.completed && state.completed) := by
  let running := tick.programRunning && tick.mediaRunning &&
    !tick.programDiscontinuity && !state.completed
  let distance :=
    if running then normalizedDistance config tick.sourceDurationSeconds
      tick.deltaSeconds (state.beatDelta tick).1
    else 0
  have hdistance : 0 ≤ distance := by
    by_cases hrun : running = true
    · rw [show distance = _ from if_pos hrun]
      exact normalizedDistance_nonneg _ _ _ _
    · rw [show distance = _ from if_neg hrun]
  exact ⟨distance, _, hdistance, rfl, presented_cases _ _ _ _ _, rfl, rfl, rfl, rfl, rfl⟩

theorem move_latches (hrng : UnitRange
      (effectiveRange config tick.sourceDurationSeconds))
    (h : Settled config (effectiveRange config tick.sourceDurationSeconds)
      state) (discontinuous cueMiss : Bool) :
    Latches config (effectiveRange config tick.sourceDurationSeconds) state
      (move config state tick discontinuous cueMiss) := by
  obtain ⟨distance, increment, hdistance, hpos, hpres, hdir,
    hcomp, hgen, hevs, htransp⟩ := move_eq config state tick discontinuous cueMiss
  generalize hr : effectiveRange config tick.sourceDurationSeconds = range at *
  have hmem := h.confined.1
  have hend := advancePosition_mem state.direction config.endBehavior state.completed hmem hdistance
  have hval := clamped_val (hrng.1.trans hend.1) (hend.2.trans hrng.2.2)
  refine ⟨⟨?_, ?_, ?_⟩, ⟨h.authored.initialized, h.authored.direction_eq,
    h.authored.behavior_eq⟩, rfl, rfl, rfl, rfl, ?_, ?_, ?_⟩
  · intro honeShot
    have hbeh := h.authored.behavior_eq.symm.trans honeShot
    rw [hdir, hbeh, advancePosition_oneShot_direction]
    exact h.latched.directed honeShot
  · intro hended
    rw [hcomp] at hended
    rcases hpres with hsampled | ⟨hquiet, hsame⟩
    · rw [hsampled, hpos]
    · rcases advancePosition_completed hmem hended with hpre | hev
      · rw [hsame, hpos, h.latched.presented hpre]
        rw [hpre, advancePosition_rest hmem (.inr rfl)]
        exact (clamped_self _).symm
      · exact absurd hquiet hev.ne'
  · rw [hgen]
    exact min_le_right _ _
  · rw [hgen]
    exact Nat.le_min.mpr ⟨Nat.le_add_right _ _, h.latched.generation_le⟩
  · intro honeShot hev
    have hdirected := h.latched.directed (h.authored.behavior_eq.trans honeShot)
    rw [h.authored.direction_eq] at hdirected
    rw [hevs, honeShot] at hev
    obtain ⟨hpre, hadvance⟩ := advancePosition_oneShot_event hmem hev
    rw [honeShot, hadvance] at hpres hval hevs hcomp
    rw [hpre, Bool.and_false] at htransp
    refine ⟨hevs, hcomp, htransp, ?_⟩
    rcases hpres with hsampled | ⟨hquiet, -⟩
    · rw [← hdirected]
      exact (congrArg Subtype.val hsampled).trans hval
    · cases hquiet
  · intro honeShot hended
    rw [hended, advancePosition_rest hmem (.inr rfl)]
      at hpres hevs hcomp htransp
    refine ⟨hevs, hcomp, ?_, ?_⟩
    · rw [htransp, honeShot]
      rfl
    · rcases hpres with hsampled | ⟨-, hsame⟩
      · refine hsampled.trans ?_
        rw [h.latched.presented hended]
        exact clamped_self _
      · exact hsame

theorem Latched.sanitized (h : Latched state) : Latched state.sanitized :=
  ⟨h.directed, h.presented, h.generation_le⟩

theorem Authored.sanitized (h : Authored config state) :
    Authored config.sanitized state.sanitized :=
  ⟨h.initialized, h.direction_eq, h.behavior_eq⟩

theorem unitRange_sourceRange (config : ClipTransportConfig)
    (tick : ProgramTransportTick) : UnitRange (sourceRange config tick) :=
  effectiveRange_mem config _

theorem select_latches (config : ClipTransportConfig)
    (tick : ProgramTransportTick) (h : Latched state) :
    Latches config.sanitized (sourceRange config tick)
      (settle config.sanitized state.sanitized tick.sanitized).1
      (select config state tick) := by
  have hrng : sourceRange config tick =
      effectiveRange config.sanitized tick.sanitized.sourceDurationSeconds :=
    rfl
  have hunit := unitRange_sourceRange config tick
  rw [hrng] at hunit ⊢
  have hset := settle_settled config.sanitized state.sanitized tick.sanitized h.sanitized hunit
  exact move_latches hunit hset _ _

theorem select_stays (h : Latched state) (hauth : Authored config state)
    (honeShot : config.endBehavior = .oneShot)
    (hcomp : state.completed = true)
    (hseek : requestedSeek config tick = none)
    (hpos : clamp state.position.val (sourceRange config tick).1
      (sourceRange config tick).2 = state.position.val) :
    (select config state tick).2.boundaryEvents = 0 ∧
      (select config state tick).2.completed = true ∧
      (select config state tick).2.transparent = true ∧
      (select config state tick).2.normalizedTime = state.presentedPosition := by
  have hset := settle_of_completed config.sanitized state.sanitized
    tick.sanitized h.sanitized hauth.sanitized hcomp hseek hpos
  have hlatches := select_latches config tick h
  obtain ⟨direction, halign⟩ := align_fields config.sanitized state.sanitized
    (effectiveRange config.sanitized tick.sanitized.sourceDurationSeconds)
  rw [hset, halign] at hlatches
  exact hlatches.stays honeShot hcomp

end

section

variable (steps : ℕ → ClipTransportConfig × ProgramTransportTick)

def stateAt : ℕ → ClipTransportState
  | 0 => .default
  | n + 1 => (select (steps n).1 (stateAt n) (steps n).2).1

def selectionAt (n : ℕ) : FrameSelection := (select (steps n).1 (stateAt steps n) (steps n).2).2

/-- The tick after the given one is a seek, a resolved cue, a change of the
authored direction or end behavior, or a change of the range that moves the
position. -/
def Resets (n : ℕ) : Prop :=
  let previous := steps n
  let current := steps (n + 1)
  let range := sourceRange current.1 current.2
  let position := (selectionAt steps n).logicalTime.val
  requestedSeek current.1 current.2 ≠ none ∨
    current.1.direction ≠ previous.1.direction ∨
    current.1.endBehavior ≠ previous.1.endBehavior ∨
    clamp position range.1 range.2 ≠ position

variable (n : ℕ)

theorem latched_stateAt : Latched (stateAt steps n) := by
  induction n with
  | zero => exact latched_default
  | succ n ih => exact (select_latches _ _ ih).latched

theorem authored_stateAt : Authored (steps n).1 (stateAt steps (n + 1)) := by
  have hauth := (select_latches (steps n).1 (steps n).2 (latched_stateAt steps n)).authored
  exact ⟨hauth.initialized, hauth.direction_eq, hauth.behavior_eq⟩

theorem generation_selectionAt :
    (selectionAt steps n).generation = (stateAt steps (n + 1)).generation :=
  (select_latches _ _ (latched_stateAt steps n)).generation_eq

theorem generation_stateAt_mono : Monotone fun n => (stateAt steps n).generation := by
  refine monotone_nat_of_le_succ fun n => ?_
  have hle := (select_latches (steps n).1 (steps n).2 (latched_stateAt steps n)).generation_le
  rw [settle_generation] at hle
  exact hle

variable {steps}

theorem selectionAt_stays {n : ℕ} (hquiet : ¬Resets steps n)
    (honeShot : (steps n).1.endBehavior = .oneShot)
    (hcomp : (stateAt steps (n + 1)).completed = true) :
    (steps (n + 1)).1.endBehavior = .oneShot ∧
      (selectionAt steps (n + 1)).boundaryEvents = 0 ∧
      (selectionAt steps (n + 1)).completed = true ∧
      (selectionAt steps (n + 1)).transparent = true ∧
      (selectionAt steps (n + 1)).normalizedTime = (selectionAt steps n).normalizedTime := by
  have hlatches := select_latches (steps n).1 (steps n).2 (latched_stateAt steps n)
  have hauth := authored_stateAt steps n
  simp only [Resets, not_or, not_not] at hquiet
  obtain ⟨hseek, hdir, hbeh, hpos⟩ := hquiet
  have hauthored' : Authored (steps (n + 1)).1 (stateAt steps (n + 1)) :=
    ⟨hauth.initialized, hauth.direction_eq.trans hdir.symm, hauth.behavior_eq.trans hbeh.symm⟩
  have hlogical : (selectionAt steps n).logicalTime =
      (stateAt steps (n + 1)).position := hlatches.logical_eq
  have hpres : (selectionAt steps n).normalizedTime =
      (stateAt steps (n + 1)).presentedPosition := hlatches.presented_eq
  rw [hlogical] at hpos
  rw [hpres]
  exact ⟨hbeh.trans honeShot, select_stays (latched_stateAt steps (n + 1))
    hauthored' (hbeh.trans honeShot) hcomp hseek hpos⟩

/-- In every run, the generation never decreases.  A one-shot tick that reports
a boundary reports one, is completed and not transparent, and presents the
terminal boundary of its range; every later tick up to the next reset is
completed and transparent, reports none and presents the same position. -/
theorem one_shot_terminal_once (steps : ℕ → ClipTransportConfig × ProgramTransportTick) :
    (∀ m n, m ≤ n → (selectionAt steps m).generation ≤ (selectionAt steps n).generation) ∧
    ∀ i, (steps i).1.endBehavior = .oneShot →
      0 < (selectionAt steps i).boundaryEvents →
      ((selectionAt steps i).boundaryEvents = 1 ∧
        (selectionAt steps i).completed = true ∧
        (selectionAt steps i).transparent = false ∧
        (selectionAt steps i).normalizedTime.val =
          terminal (sourceRange (steps i).1 (steps i).2) (steps i).1.direction) ∧
      ∀ j, i < j → (∀ k, i ≤ k → k < j → ¬Resets steps k) →
        (selectionAt steps j).boundaryEvents = 0 ∧
        (selectionAt steps j).completed = true ∧
        (selectionAt steps j).transparent = true ∧
        (selectionAt steps j).normalizedTime = (selectionAt steps i).normalizedTime := by
  refine ⟨?_, ?_⟩
  · intro m n hle
    rw [generation_selectionAt, generation_selectionAt]
    exact generation_stateAt_mono steps (succ_le_succ hle)
  · intro i honeShot hevent
    have hlatches := select_latches (steps i).1 (steps i).2 (latched_stateAt steps i)
    have hend := hlatches.ends honeShot hevent
    refine ⟨hend, ?_⟩
    intro j hlt hquiet
    have hcompleted (n : ℕ) : (selectionAt steps n).completed = (stateAt steps (n + 1)).completed :=
      (select_latches _ _ (latched_stateAt steps n)).completed_eq
    have hstays : (steps j).1.endBehavior = .oneShot ∧
        (selectionAt steps j).boundaryEvents = 0 ∧
        (selectionAt steps j).completed = true ∧
        (selectionAt steps j).transparent = true ∧
        (selectionAt steps j).normalizedTime = (selectionAt steps i).normalizedTime := by
      induction j, hlt using le_induction with
      | base =>
        exact selectionAt_stays (hquiet i le_rfl (lt_succ_self i))
          honeShot ((hcompleted i).symm.trans hend.2.1)
      | succ j hle ih =>
        obtain ⟨honeShot', -, hdone, -, hsame⟩ := ih fun k hik hkj =>
          hquiet k hik (hkj.trans (lt_succ_self j))
        have hnext := selectionAt_stays (hquiet j (le_of_succ_le hle) (lt_succ_self j)) honeShot'
          ((hcompleted j).symm.trans hdone)
        rw [hsame] at hnext
        exact hnext
    exact hstays.2

/-- A clip of one second under ticks of two seconds. -/
def shortClip (_ : ℕ) : ClipTransportConfig × ProgramTransportTick :=
  ({ ClipTransportConfig.default with endBehavior := .oneShot },
    { deltaSeconds := 2
      programBeat := 0
      programRunning := true
      mediaRunning := true
      programDiscontinuity := false
      sourceDurationSeconds := 1
      sourceFrameCount := 25
      seekTo := none
      cueId := none })

theorem one_shot_terminal_once_shortClip :
    (selectionAt shortClip 0).normalizedTime.val = 1 ∧
      (selectionAt shortClip 0).transparent = false ∧
      (selectionAt shortClip 1).normalizedTime.val = 1 ∧
      (selectionAt shortClip 1).transparent = true := by
  have hevent : 0 < (selectionAt shortClip 0).boundaryEvents := by decide +kernel
  have hquiet : ∀ k, 0 ≤ k → k < 1 → ¬Resets shortClip k := by
    intro k hk hlt
    obtain rfl : k = 0 := by omega
    unfold Resets
    decide +kernel
  obtain ⟨-, hrun⟩ := one_shot_terminal_once shortClip
  obtain ⟨⟨-, -, hshown, hterminal⟩, hlater⟩ := hrun 0 rfl hevent
  obtain ⟨-, -, htransparent, hsame⟩ := hlater 1 zero_lt_one hquiet
  have hend : terminal (sourceRange (shortClip 0).1 (shortClip 0).2)
      (shortClip 0).1.direction = 1 := by
    decide +kernel
  exact ⟨hterminal.trans hend, hshown,
    (congrArg Subtype.val hsame).trans (hterminal.trans hend), htransparent⟩

end

end CollideOScope.Transport
