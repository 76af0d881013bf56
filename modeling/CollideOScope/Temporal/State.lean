import CollideOScope.Support.WholePart
import CollideOScope.Support.Words

/-!
# The temporal state

A frame is staged against the processor state of the temporal effects and then
committed or discarded.  Staging applies the resets of the frame's events,
reads the history ring through indices and counts, and decides whether the
frame is recorded and in which layer.

The uniform blocks of the shaders are left out: they repeat the read snapshot,
the score and the parameters.  Accumulated time is a double-precision value
whose arithmetic is not interpreted.
-/

namespace CollideOScope.Temporal

/-- Double-precision seconds, with the conversions to and from them. -/
class Seconds (S : Type) extends FloatOps S where
  ofF32 : F32 → S
  ofU64 : ℕ → S
  /-- `value as u64`. -/
  toU64 : S → ℕ

instance : Seconds ℚ where
  ofF32 a := a.value / F32.scale
  ofU64 n := n
  toU64 a := min u64Max a.floor.toNat

def temporalHistoryLen : ℕ := 24

def temporalReferenceFps : F32 := 30

def u32Max : ℕ := 2 ^ 32 - 1

def usizeMax : ℕ := u64Max

inductive TemporalEventResetMode
  | none | score | memory | all
  deriving DecidableEq

structure TemporalResetPolicy where
  (loopBoundary downbeat : TemporalEventResetMode)

inductive CollisionScoreTrigger
  | boundary | downbeat | audioOnset | manual

structure CollisionScoreParams where
  enabled : Bool
  stateCount : ℕ
  trigger : CollisionScoreTrigger

structure RefreshGardenParams where
  amount : F32
  maxHoldTicks : ℕ

structure TemporalOriginalsParams where
  garden : RefreshGardenParams
  score : CollisionScoreParams
  reset : TemporalResetPolicy

structure TemporalParams where
  keyHistory : F32
  originals : TemporalOriginalsParams

def CollisionScoreParams.sanitized (params : CollisionScoreParams) : CollisionScoreParams :=
  { params with stateCount := max 2 (min 16 params.stateCount) }

def RefreshGardenParams.sanitized (params : RefreshGardenParams) : RefreshGardenParams :=
  { params with amount := (params.amount.finiteOr 0).clamp 0 1 }

def TemporalOriginalsParams.sanitized (params : TemporalOriginalsParams) :
    TemporalOriginalsParams :=
  { params with
    garden := params.garden.sanitized
    score := params.score.sanitized }

/-- `for_frame_delta`, which converts no other field that is modelled. -/
def TemporalParams.forFrameDelta (params : TemporalParams) : TemporalParams where
  keyHistory := (params.keyHistory.finiteOr 1).roundHalfAway.clamp 1 23
  originals := params.originals.sanitized

structure TemporalFrameEvents where
  boundaryEvents : ℕ
  (downbeatEvents audioOnsetEvents manualEvents gardenRefreshEvents : ℕ)

def TemporalFrameEvents.countFor (events : TemporalFrameEvents) : CollisionScoreTrigger → ℕ
  | .boundary => events.boundaryEvents
  | .downbeat => events.downbeatEvents
  | .audioOnset => events.audioOnsetEvents
  | .manual => events.manualEvents

inductive TemporalFreezeState
  | running | programFrozen | mediaFrozen | programAndMediaFrozen

def TemporalFreezeState.programAdvances : TemporalFreezeState → Bool
  | running | mediaFrozen => true
  | programFrozen | programAndMediaFrozen => false

structure TemporalFrameInput where
  deltaSeconds : F32
  freeze : TemporalFreezeState
  events : TemporalFrameEvents

inductive TemporalResetCause
  | patchGeneration | applyLook | sourceCut | seek | resize | broadRevert
  | manualClear | bypassPartition | loopBoundary | downbeat | blackoutTransition

structure TemporalResetDomains where
  (cleanHistory carrier score freezeHold : Bool)
  deriving DecidableEq

namespace TemporalResetDomains

def none : TemporalResetDomains := ⟨false, false, false, false⟩

def hard : TemporalResetDomains := ⟨true, true, true, true⟩

/-- A manual clear keeps the image that is held. -/
def manualMemory : TemporalResetDomains := ⟨true, true, true, false⟩

def forCause : TemporalResetCause → TemporalResetDomains
  | .patchGeneration | .applyLook | .sourceCut | .seek | .resize
  | .broadRevert | .bypassPartition => hard
  | .manualClear => manualMemory
  | .loopBoundary | .downbeat | .blackoutTransition => none

def union (a b : TemporalResetDomains) : TemporalResetDomains where
  cleanHistory := a.cleanHistory || b.cleanHistory
  carrier := a.carrier || b.carrier
  score := a.score || b.score
  freezeHold := a.freezeHold || b.freezeHold

end TemporalResetDomains

def eventResetModeDomains : TemporalEventResetMode → TemporalResetDomains
  | .none => .none
  | .score => ⟨false, false, true, false⟩
  | .memory => ⟨true, true, false, false⟩
  | .all => ⟨true, true, true, false⟩

def eventResetDomains (policy : TemporalResetPolicy)
    (events : TemporalFrameEvents) : TemporalResetDomains :=
  let loopReset := if events.boundaryEvents = 0 then .none
    else eventResetModeDomains policy.loopBoundary
  let downbeatReset := if events.downbeatEvents = 0 then .none
    else eventResetModeDomains policy.downbeat
  loopReset.union downbeatReset

structure TemporalReadSnapshot where
  (virtualWrite virtualValid : ℕ)
  keyReference : Option ℕ

def temporalKeyDepth (requestedDepth : F32) : ℕ :=
  if requestedDepth.isFinite then (requestedDepth.roundHalfAway.clamp 1 23).toNat usizeMax
  else 1

def temporalKeyReferenceLayer (historyWrite historyValid : ℕ) (requestedDepth : F32) : Option ℕ :=
  let offset := temporalKeyDepth requestedDepth - 1
  if historyValid = 0 || offset ≥ historyValid then none
  else some ((historyWrite + temporalHistoryLen - offset) % temporalHistoryLen)

def temporalReadSnapshot (previousWrite previousValid : ℕ)
    (keyHistory : F32) : TemporalReadSnapshot where
  virtualWrite := if previousValid = 0 then 0
    else (previousWrite + 1) % temporalHistoryLen
  virtualValid := if previousValid = 0 then 0
    else min (previousValid + 1) temporalHistoryLen
  keyReference := temporalKeyReferenceLayer previousWrite previousValid keyHistory

inductive TemporalInterpolation
  | floor | linear

/-- Age zero is the current image; the other ages address the ring. -/
structure TemporalHistorySamplePlan where
  (lowerAge upperAge : ℕ)
  mix : F32

def temporalHistorySamplePlan (requestedAge : F32) (virtualValid : ℕ)
    (interpolation : TemporalInterpolation) : TemporalHistorySamplePlan :=
  let maxAge := min (virtualValid - 1) (temporalHistoryLen - 1)
  let age := (requestedAge.finiteOr 0).clamp 0 (F32.ofNat maxAge)
  let lowerAge := age.floor.toNat u32Max
  match interpolation with
  | .floor => ⟨lowerAge, lowerAge, 0⟩
  | .linear => ⟨lowerAge, age.ceil.toNat u32Max, age.fract⟩

structure CollisionScoreState where
  (stateIndex eventOrdinal : ℕ)

def CollisionScoreState.default : CollisionScoreState := ⟨0, 0⟩

structure TemporalStateSnapshot (S : Type) where
  (historyWrite historyValid : ℕ)
  historyAccumulator : S
  (feedbackValid freezeHoldValid initialized : Bool)
  (totalHistoryFrames totalReferenceTicks : ℕ)
  score : CollisionScoreState
  gardenHoldTicks : ℕ
  lastReset : Option TemporalResetCause

structure TemporalState (S : Type) extends TemporalStateSnapshot S where
  stagedSnapshot : Option (TemporalStateSnapshot S)

inductive TemporalFrameAction
  | primeFrozenOutput | holdFrozenOutput
  | advance (recordHistory : Bool)

structure TemporalFramePlan where
  action : TemporalFrameAction
  read : TemporalReadSnapshot
  historyWriteTarget : Option ℕ
  (observationTicks scoreEventsConsumed gardenRefreshEventsConsumed : ℕ)
  gardenForceRefresh : Bool

def sanitizeDelta (deltaSeconds : F32) : F32 :=
  if deltaSeconds.isFinite then if deltaSeconds.lt 0 then 0 else deltaSeconds
  else F32.ofMagnitude false (F32.roundMagnitude F32.scale 30)

namespace TemporalStateSnapshot

variable {S : Type} [Seconds S]

def default : TemporalStateSnapshot S where
  historyWrite := 0
  historyValid := 0
  historyAccumulator := FloatOps.lit 0
  feedbackValid := false
  freezeHoldValid := false
  initialized := false
  totalHistoryFrames := 0
  totalReferenceTicks := 0
  score := .default
  gardenHoldTicks := 0
  lastReset := none

def clearHistory (state : TemporalStateSnapshot S) : TemporalStateSnapshot S :=
  { state with
    historyWrite := 0
    historyValid := 0
    historyAccumulator := FloatOps.lit 0
    initialized := false
    totalHistoryFrames := 0
    totalReferenceTicks := 0 }

def applyResetValues (state : TemporalStateSnapshot S)
    (domains : TemporalResetDomains) : TemporalStateSnapshot S :=
  let state := if domains.cleanHistory then state.clearHistory else state
  let state := if domains.carrier then
    { state with feedbackValid := false, gardenHoldTicks := 0 } else state
  let state := if domains.freezeHold then
    { state with freezeHoldValid := false } else state
  if domains.score then { state with score := .default } else state

/-- The reference ticks that a frame observes. -/
def historyTicksForDelta (state : TemporalStateSnapshot S)
    (deltaSeconds : F32) : ℕ × TemporalStateSnapshot S :=
  if !state.initialized then
    (1, { state with
      initialized := true
      totalReferenceTicks := saturatingAddU64 state.totalReferenceTicks 1 })
  else
    let referenceDelta : S := FloatOps.lit 1 / Seconds.ofF32 temporalReferenceFps
    let accumulator := state.historyAccumulator + Seconds.ofF32 (sanitizeDelta deltaSeconds)
    let elapsed := Seconds.toU64 (FloatOps.floor (accumulator / referenceDelta))
    if elapsed = 0 then (0, { state with historyAccumulator := accumulator })
    else
      let bounded := min elapsed temporalHistoryLen
      (bounded, { state with
        historyAccumulator := accumulator - Seconds.ofU64 elapsed * referenceDelta
        totalReferenceTicks := saturatingAddU64 state.totalReferenceTicks bounded })

def recordHistoryFrame (state : TemporalStateSnapshot S) : TemporalStateSnapshot S :=
  { state with
    historyWrite := if state.historyValid > 0 then
      (state.historyWrite + 1) % temporalHistoryLen else state.historyWrite
    historyValid := min (state.historyValid + 1) temporalHistoryLen
    totalHistoryFrames := min (state.totalHistoryFrames + 1) usizeMax }

def advanceGardenHold (state : TemporalStateSnapshot S) (garden : RefreshGardenParams) (ticks : ℕ) :
    Bool × TemporalStateSnapshot S :=
  if garden.amount.le 0 || garden.maxHoldTicks = 0 then (false, { state with gardenHoldTicks := 0 })
  else
    let accumulated := min (state.gardenHoldTicks + ticks) u32Max
    if accumulated < garden.maxHoldTicks then (false, { state with gardenHoldTicks := accumulated })
    else (true, { state with gardenHoldTicks := accumulated % garden.maxHoldTicks })

def advanceScore (state : TemporalStateSnapshot S)
    (score : CollisionScoreParams) (events : TemporalFrameEvents) :
    ℕ × TemporalStateSnapshot S :=
  if score.enabled then
    let count := events.countFor score.trigger
    (count, { state with
      score.eventOrdinal := saturatingAddU64 state.score.eventOrdinal count
      score.stateIndex := (state.score.stateIndex + count) % score.stateCount })
  else (0, state)

def applyEventResets (state : TemporalStateSnapshot S)
    (params : TemporalOriginalsParams) (input : TemporalFrameInput) :
    TemporalStateSnapshot S :=
  if input.freeze.programAdvances then
    let domains := eventResetDomains params.reset input.events
    let state := state.applyResetValues domains
    let isDownbeat : Bool := input.events.downbeatEvents > 0 && params.reset.downbeat ≠ .none
    if domains = .none then state
    else { state with lastReset := some (if isDownbeat then .downbeat else .loopBoundary) }
  else state

def stageFrozen (before : TemporalStateSnapshot S) (read : TemporalReadSnapshot) :
    TemporalFramePlan × TemporalStateSnapshot S :=
  if before.freezeHoldValid then (⟨.holdFrozenOutput, read, none, 0, 0, 0, false⟩, before)
  else
    (⟨.primeFrozenOutput, read, none, 0, 0, 0, false⟩,
      { before with feedbackValid := true, freezeHoldValid := true })

def stageAdvancing (before : TemporalStateSnapshot S) (params : TemporalOriginalsParams)
    (input : TemporalFrameInput) (read : TemporalReadSnapshot) :
    TemporalFramePlan × TemporalStateSnapshot S :=
  let (observationTicks, state) := before.historyTicksForDelta input.deltaSeconds
  let recordHistory : Bool := observationTicks > 0
  let state := if recordHistory then state.recordHistoryFrame else state
  let target := if recordHistory then some state.historyWrite else none
  let (periodic, state) := state.advanceGardenHold params.garden observationTicks
  let consumed := input.events.gardenRefreshEvents
  let (scored, state) := state.advanceScore params.score input.events
  (⟨.advance recordHistory, read, target, observationTicks, scored, consumed,
      periodic || consumed > 0⟩,
    { state with feedbackValid := true, freezeHoldValid := true })

/-- The body of `stage_frame`. -/
def stage (state : TemporalStateSnapshot S) (params : TemporalParams) (input : TemporalFrameInput) :
    TemporalFramePlan × TemporalStateSnapshot S :=
  let params := params.forFrameDelta
  let before := state.applyEventResets params.originals input
  let read := temporalReadSnapshot before.historyWrite before.historyValid
    params.keyHistory
  if !input.freeze.programAdvances then before.stageFrozen read
  else before.stageAdvancing params.originals input read

end TemporalStateSnapshot

namespace TemporalState

variable {S : Type} [Seconds S]

def default : TemporalState S := ⟨.default, none⟩

/-- Stage one frame; `none` when the assertion fails that no frame is
staged. -/
def stageFrame (state : TemporalState S) (params : TemporalParams) (input : TemporalFrameInput) :
    Option (TemporalFramePlan × TemporalState S) :=
  if state.stagedSnapshot.isSome then none
  else
    let original := state.toTemporalStateSnapshot
    let (plan, staged) := original.stage params input
    some (plan, ⟨staged, some original⟩)

def commitStaged (state : TemporalState S) : TemporalState S :=
  { state with stagedSnapshot := none }

def discardStaged (state : TemporalState S) : TemporalState S :=
  match state.stagedSnapshot with
  | some snapshot => ⟨snapshot, none⟩
  | none => state

def applyResetDomains (state : TemporalState S)
    (domains : TemporalResetDomains) : TemporalState S :=
  if domains = .none then state
  else ⟨state.toTemporalStateSnapshot.applyResetValues domains, none⟩

def resetFor (state : TemporalState S) (cause : TemporalResetCause) : TemporalState S :=
  { state.applyResetDomains (.forCause cause) with lastReset := some cause }

end TemporalState

end CollideOScope.Temporal
