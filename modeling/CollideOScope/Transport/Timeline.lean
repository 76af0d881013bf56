import CollideOScope.Support.Phase
import CollideOScope.Support.Words
import Mathlib.Data.Rat.Floor

/-!
# The transport timeline

`TransportTimeline::select` evaluates one tick of the program clock: it takes
the state of a clip slot to its next state and the source frame to present.
Numbers are exact rationals, so the branches for infinities and NaN are absent;
everything else is the source's.

The sections of `select` that change the state are separate definitions, in
their order.  Each answers whether it makes the tick discontinuous.
-/

namespace CollideOScope.Transport

def maxCuePoints : ℕ := 64

def maxCueId : ℕ := 4095

def minClipBpm : ℚ := 1

def maxClipBpm : ℚ := 999

def minRate : ℚ := 0

def maxRate : ℚ := 16

def minSampleFps : ℚ := 1 / 4

def maxSampleFps : ℚ := 480

def minBeatLength : ℚ := 1 / 64

def maxBeatLength : ℚ := 65536

def maxBeatLoopLength : ℚ := 64

def maxTickSeconds : ℚ := 86400

def maxSourceDurationSeconds : ℚ := 31536000

def maxBeatDelta : ℚ := 1000000

def maxNormalizedTravel : ℚ := 1000000000000

def maxSourceFrames : ℕ := 2 ^ 32 - 1

def u32Max : ℕ := 2 ^ 32 - 1

/-- `f64::EPSILON`. -/
def f64Epsilon : ℚ := 1 / 2 ^ 52

def clamp (value low high : ℚ) : ℚ := max low (min value high)

variable {value : ℚ} {high low : ℚ}

theorem clamp_of_mem (hlow : low ≤ value) (hhigh : value ≤ high) :
    clamp value low high = value := by
  rw [clamp, min_eq_left hhigh, max_eq_right hlow]

theorem le_clamp (value low high : ℚ) : low ≤ clamp value low high := le_max_left _ _

theorem clamp_le (h : low ≤ high) : clamp value low high ≤ high := max_le h (min_le_right _ _)

def sanitizeDuration (value : ℚ) : ℚ := if 0 < value then min value maxSourceDurationSeconds else 0

inductive PlaybackDirection where
  | forward | reverse
  deriving DecidableEq

inductive EndBehavior where
  | loop | pingPong | oneShot | hold
  deriving DecidableEq

abbrev NormalizedTime := {value : ℚ // 0 ≤ value ∧ value ≤ 1}

def NormalizedTime.clamped (value : ℚ) : NormalizedTime :=
  ⟨clamp value 0 1, le_clamp value 0 1, clamp_le zero_le_one⟩

theorem NormalizedTime.clamped_val (h₀ : 0 ≤ value) (h₁ : value ≤ 1) :
    (NormalizedTime.clamped value).val = value :=
  clamp_of_mem h₀ h₁

abbrev CueId := {value : ℕ // value ≤ maxCueId}

structure CuePoint where
  id : CueId
  time : NormalizedTime

/-- At most `MAX_CUE_POINTS` cues with distinct identities. -/
structure CuePoints where
  entries : List CuePoint
  bounded : entries.length ≤ maxCuePoints
  unique : (entries.map (·.id)).Nodup

def CuePoints.empty : CuePoints := ⟨[], Nat.zero_le _, List.nodup_nil⟩

def CuePoints.get (cues : CuePoints) (id : CueId) : Option CuePoint :=
  cues.entries.find? (·.id = id)

structure ClipBeatGrid where
  bpm : ℚ
  lengthBeats : Option ℚ
  syncToProgram : Bool

def ClipBeatGrid.sanitized (grid : ClipBeatGrid) : ClipBeatGrid where
  bpm := clamp grid.bpm minClipBpm maxClipBpm
  lengthBeats := grid.lengthBeats.bind fun beats =>
    if 0 < beats then some (clamp beats minBeatLength maxBeatLength) else none
  syncToProgram := grid.syncToProgram

def ClipBeatGrid.totalBeats (grid : ClipBeatGrid) (sourceDurationSeconds : ℚ) : Option ℚ :=
  match grid.sanitized.lengthBeats with
  | some beats => some beats
  | none =>
    let duration := sanitizeDuration sourceDurationSeconds
    if 0 < duration then
      some (clamp (duration * grid.sanitized.bpm / 60) minBeatLength maxBeatLength)
    else none

structure BeatLoop where
  (startBeat lengthBeats : ℚ)

def BeatLoop.sanitized (beatLoop : BeatLoop) : BeatLoop where
  startBeat := clamp beatLoop.startBeat 0 maxBeatLength
  lengthBeats := clamp beatLoop.lengthBeats minBeatLength maxBeatLoopLength

structure ClipTransportConfig where
  direction : PlaybackDirection
  endBehavior : EndBehavior
  (inPoint outPoint : NormalizedTime)
  rate : ℚ
  sampleFps : Option ℚ
  beatGrid : Option ClipBeatGrid
  beatLoop : Option BeatLoop
  cues : CuePoints

namespace ClipTransportConfig

def default : ClipTransportConfig where
  direction := .forward
  endBehavior := .loop
  inPoint := ⟨0, le_refl 0, zero_le_one⟩
  outPoint := ⟨1, zero_le_one, le_refl 1⟩
  rate := 1
  sampleFps := none
  beatGrid := none
  beatLoop := none
  cues := .empty

def sanitized (config : ClipTransportConfig) : ClipTransportConfig where
  direction := config.direction
  endBehavior := config.endBehavior
  inPoint := min config.inPoint config.outPoint
  outPoint := max config.inPoint config.outPoint
  rate := clamp config.rate minRate maxRate
  sampleFps := config.sampleFps.bind fun fps =>
    if 0 < fps then some (clamp fps minSampleFps maxSampleFps) else none
  beatGrid := config.beatGrid.map (·.sanitized)
  beatLoop := config.beatLoop.map (·.sanitized)
  cues := config.cues

def cue (config : ClipTransportConfig) (id : CueId) : Option CuePoint := config.cues.get id

end ClipTransportConfig

structure ClipTransportState where
  (position presentedPosition : NormalizedTime)
  (direction configuredDirection : PlaybackDirection)
  configuredEndBehavior : EndBehavior
  completed : Bool
  sampleAccumulatorSeconds : ℚ
  generation : ℕ
  lastProgramBeat : Option ℚ
  initialized : Bool

namespace ClipTransportState

def default : ClipTransportState where
  position := ⟨0, le_refl 0, zero_le_one⟩
  presentedPosition := ⟨0, le_refl 0, zero_le_one⟩
  direction := .forward
  configuredDirection := .forward
  configuredEndBehavior := .loop
  completed := false
  sampleAccumulatorSeconds := 0
  generation := 0
  lastProgramBeat := none
  initialized := false

/-- `ClipTransportState::at`. -/
def atPosition (position : NormalizedTime) (direction : PlaybackDirection) : ClipTransportState :=
  { ClipTransportState.default with
    position := position
    presentedPosition := position
    direction := direction
    configuredDirection := direction
    initialized := true }

def sanitized (state : ClipTransportState) : ClipTransportState :=
  { state with sampleAccumulatorSeconds := clamp state.sampleAccumulatorSeconds 0 maxTickSeconds }

end ClipTransportState

structure ProgramTransportTick where
  (deltaSeconds programBeat : ℚ)
  (programRunning mediaRunning programDiscontinuity : Bool)
  sourceDurationSeconds : ℚ
  sourceFrameCount : ℕ
  seekTo : Option NormalizedTime
  cueId : Option CueId

def ProgramTransportTick.sanitized (tick : ProgramTransportTick) : ProgramTransportTick :=
  { tick with
    deltaSeconds := clamp tick.deltaSeconds 0 maxTickSeconds
    sourceDurationSeconds := sanitizeDuration tick.sourceDurationSeconds
    sourceFrameCount := min tick.sourceFrameCount maxSourceFrames }

structure FrameSelection where
  (normalizedTime logicalTime : NormalizedTime)
  sourceSeconds : ℚ
  frameIndex : Option ℕ
  direction : PlaybackDirection
  (advancing sampleDue held transparent completed discontinuity : Bool)
  (boundaryEvents generation : ℕ)
  cueMiss : Bool

def effectiveRange (config : ClipTransportConfig) (duration : ℚ) : ℚ × ℚ :=
  let base := (config.inPoint.val, config.outPoint.val)
  match config.beatLoop with
  | none => base
  | some beatLoop =>
    match config.beatGrid.bind (·.totalBeats duration) with
    | none => base
    | some totalBeats =>
      let looped := beatLoop.sanitized
      let loopStart := clamp (looped.startBeat / totalBeats) 0 1
      let loopEnd := clamp ((looped.startBeat + looped.lengthBeats) / totalBeats) 0 1
      if max base.1 loopStart ≤ min base.2 loopEnd then (max base.1 loopStart, min base.2 loopEnd)
      else base

/-- The distance of `normalized_distance` before its limit. -/
def travel (config : ClipTransportConfig) (duration deltaSeconds beatDelta : ℚ) : ℚ :=
  match config.beatGrid with
  | some grid =>
    if grid.syncToProgram then
      match grid.totalBeats duration with
      | none => 0
      | some beats => beatDelta * config.rate / beats
    else if 0 < duration then deltaSeconds * config.rate / duration
    else 0
  | none => if 0 < duration then deltaSeconds * config.rate / duration else 0

def normalizedDistance (config : ClipTransportConfig) (duration deltaSeconds beatDelta : ℚ) : ℚ :=
  clamp (travel config duration deltaSeconds beatDelta) 0 maxNormalizedTravel

/-- `saturated_event_count` of a count that is an integer. -/
def saturatedEventCount (events : ℤ) : ℕ :=
  if events ≤ 0 then 0
  else if (u32Max : ℤ) ≤ events then u32Max
  else events.toNat

def normalizePingPongEndpointDirection (direction : PlaybackDirection)
    (position start stop : ℚ) : PlaybackDirection :=
  if stop ≤ start then direction
  else if position = start ∧ direction = .reverse then .forward
  else if position = stop ∧ direction = .forward then .reverse
  else direction

structure Advance where
  position : ℚ
  direction : PlaybackDirection
  completed : Bool
  boundaryEvents : ℕ

def advanceLoop (position : ℚ) (direction : PlaybackDirection)
    (start stop distance : ℚ) : Advance :=
  let span := stop - start
  match direction with
  | .forward =>
    let total := position - start + distance
    ⟨start + remEuclid total span, direction, false, saturatedEventCount ⌊total / span⌋⟩
  | .reverse =>
    let total := stop - position + distance
    ⟨stop - remEuclid total span, direction, false, saturatedEventCount ⌊total / span⌋⟩

def advancePingPong (position : ℚ) (direction : PlaybackDirection)
    (start stop distance : ℚ) : Advance :=
  let span := stop - start
  let offset := position - start
  let phase :=
    match direction with
    | .forward => offset
    | .reverse => 2 * span - offset
  let nextPhase := phase + distance
  let events := saturatedEventCount (⌊nextPhase / span⌋ - ⌊phase / span⌋)
  let folded := remEuclid nextPhase (2 * span)
  if folded < span then ⟨start + folded, .forward, false, events⟩
  else if span < folded then ⟨stop - (folded - span), .reverse, false, events⟩
  else ⟨stop, .reverse, false, events⟩

def advanceToEnd (position : ℚ) (direction : PlaybackDirection)
    (start stop distance : ℚ) : Advance :=
  match direction with
  | .forward =>
    if stop ≤ position + distance then ⟨stop, direction, true, 1⟩
    else ⟨position + distance, direction, false, 0⟩
  | .reverse =>
    if position - distance ≤ start then ⟨start, direction, true, 1⟩
    else ⟨position - distance, direction, false, 0⟩

def advancePosition (position : ℚ) (direction : PlaybackDirection) (behavior : EndBehavior)
    (start stop distance : ℚ) (alreadyCompleted : Bool) : Advance :=
  if distance ≤ 0 ∨ alreadyCompleted then
    ⟨clamp position start stop, direction, alreadyCompleted, 0⟩
  else if stop - start ≤ 0 then
    let completed := behavior = .oneShot ∨ behavior = .hold
    ⟨start, direction, completed, if completed then 1 else 0⟩
  else
    let position := clamp position start stop
    match behavior with
    | .loop => advanceLoop position direction start stop distance
    | .pingPong => advancePingPong position direction start stop distance
    | .oneShot => advanceToEnd position direction start stop distance
    | .hold => advanceToEnd position direction start stop distance

namespace ClipTransportState

def begin (state : ClipTransportState) (config : ClipTransportConfig)
    (range : ℚ × ℚ) : ClipTransportState × Bool :=
  if state.initialized then (state, false)
  else
    let initial :=
      match config.direction with
      | .forward => range.1
      | .reverse => range.2
    ({ state with
      position := .clamped initial
      presentedPosition := .clamped initial
      direction := config.direction
      configuredDirection := config.direction
      configuredEndBehavior := config.endBehavior
      completed := false
      initialized := true }, true)

def adopt (state : ClipTransportState) (config : ClipTransportConfig) : ClipTransportState × Bool :=
  if state.configuredDirection ≠ config.direction ∨
      state.configuredEndBehavior ≠ config.endBehavior then
    ({ state with
      direction := config.direction
      configuredDirection := config.direction
      configuredEndBehavior := config.endBehavior
      completed := false
      sampleAccumulatorSeconds := 0 }, true)
  else (state, false)

def confine (state : ClipTransportState) (range : ℚ × ℚ) : ClipTransportState × Bool :=
  let position := clamp state.position.val range.1 range.2
  let presented := clamp state.presentedPosition.val range.1 range.2
  if position ≠ state.position.val ∨
      presented ≠ state.presentedPosition.val then
    ({ state with
      position := .clamped position
      presentedPosition := .clamped presented
      completed := false }, true)
  else (state, false)

def seek (state : ClipTransportState) (config : ClipTransportConfig)
    (range : ℚ × ℚ) : Option NormalizedTime → ClipTransportState × Bool
  | none => (state, false)
  | some time =>
    let position := NormalizedTime.clamped (clamp time.val range.1 range.2)
    ({ state with
      position := position
      presentedPosition := position
      direction := config.direction
      completed := false
      sampleAccumulatorSeconds := 0 }, true)

def align (state : ClipTransportState) (config : ClipTransportConfig)
    (range : ℚ × ℚ) : ClipTransportState :=
  if config.endBehavior = .pingPong then
    { state with
      direction := normalizePingPongEndpointDirection state.direction
        state.position.val range.1 range.2 }
  else state

/-- The beats since the last observed one, and whether the beat went back. -/
def beatDelta (state : ClipTransportState) (tick : ProgramTransportTick) : ℚ × Bool :=
  match state.lastProgramBeat with
  | none => (0, false)
  | some previous =>
    let rawDelta := tick.programBeat - previous
    if rawDelta < 0 then (0, true)
    else if tick.programRunning && !tick.programDiscontinuity then
      (min rawDelta maxBeatDelta, false)
    else (0, false)

/-- The sampled cadence: the accumulator after the tick and whether a sample is
due. -/
def cadence (state : ClipTransportState) (config : ClipTransportConfig)
    (deltaSeconds : ℚ) (running advancing : Bool) : ℚ × Bool :=
  match config.sampleFps with
  | none => (state.sampleAccumulatorSeconds, advancing)
  | some sampleFps =>
    if running && decide (0 < config.rate) then
      let period := 1 / sampleFps
      let total := min (state.sampleAccumulatorSeconds + deltaSeconds)
        maxTickSeconds
      if period ≤ total + f64Epsilon then
        let rest := total - ⌊total / period⌋ * period
        (if rest < 0 ∨ period ≤ rest then remEuclid rest period else rest, true)
      else (total, false)
    else (state.sampleAccumulatorSeconds, false)

end ClipTransportState

def frameIndexAt (normalized : ℚ) (frameCount : ℕ) : Option ℕ :=
  if frameCount = 0 then none
  else some (min ⌊clamp normalized 0 1 * frameCount⌋.toNat (frameCount - 1))

/-- The state a tick advances, whether it is discontinuous, and whether a cue
was missing. -/
def settle (config : ClipTransportConfig) (state : ClipTransportState)
    (tick : ProgramTransportTick) : ClipTransportState × Bool × Bool :=
  let range := effectiveRange config tick.sourceDurationSeconds
  let begun := state.begin config range
  let adopted := begun.1.adopt config
  let confined := adopted.1.confine range
  let requestedSeek := tick.seekTo.or
    (tick.cueId.bind fun id => (config.cue id).map (·.time))
  let cueMiss := tick.seekTo.isNone && tick.cueId.isSome && requestedSeek.isNone
  let sought := confined.1.seek config range requestedSeek
  (sought.1.align config range,
    tick.programDiscontinuity || begun.2 || adopted.2 || confined.2 ||
      sought.2, cueMiss)

/-- The part of `select` that moves a settled state. -/
def move (config : ClipTransportConfig) (state : ClipTransportState)
    (tick : ProgramTransportTick) (discontinuous cueMiss : Bool) :
    ClipTransportState × FrameSelection :=
  let duration := tick.sourceDurationSeconds
  let range := effectiveRange config duration
  let beat := state.beatDelta tick
  let baseDiscontinuity := discontinuous || beat.2
  let running := tick.programRunning && tick.mediaRunning &&
    !tick.programDiscontinuity && !state.completed
  let distance :=
    if running then normalizedDistance config duration tick.deltaSeconds beat.1
    else 0
  let advance := advancePosition state.position.val state.direction
    config.endBehavior range.1 range.2 distance state.completed
  let position := NormalizedTime.clamped advance.position
  let advancing := decide (0 < distance) &&
    (decide (position ≠ state.position) ||
      decide (0 < advance.boundaryEvents) || advance.completed)
  let discontinuity := baseDiscontinuity || decide (0 < advance.boundaryEvents)
  let generation := saturatingAddU64 state.generation
    (saturatingAddU64 baseDiscontinuity.toNat advance.boundaryEvents)
  let cadence := state.cadence config tick.deltaSeconds running advancing
  let sampleDue := discontinuity || cadence.2
  let presented := if sampleDue then position else state.presentedPosition
  ({ state with
      position := position
      presentedPosition := presented
      direction := advance.direction
      completed := advance.completed
      sampleAccumulatorSeconds := cadence.1
      generation := generation
      lastProgramBeat := some tick.programBeat },
    { normalizedTime := presented
      logicalTime := position
      sourceSeconds := if 0 < duration then presented.val * duration else 0
      frameIndex := frameIndexAt presented.val tick.sourceFrameCount
      direction := advance.direction
      advancing := advancing
      sampleDue := sampleDue
      held := !sampleDue || !advancing || !running || advance.completed
      transparent := decide (config.endBehavior = .oneShot) && advance.completed && state.completed
      completed := advance.completed
      discontinuity := discontinuity
      boundaryEvents := advance.boundaryEvents
      generation := generation
      cueMiss := cueMiss })

def select (config : ClipTransportConfig) (state : ClipTransportState)
    (tick : ProgramTransportTick) : ClipTransportState × FrameSelection :=
  let settled := settle config.sanitized state.sanitized tick.sanitized
  move config.sanitized settled.1 tick.sanitized settled.2.1 settled.2.2

end CollideOScope.Transport
