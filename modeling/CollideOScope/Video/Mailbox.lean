import CollideOScope.Support.Machine
import CollideOScope.Support.Words

/-!
# The decoder mailbox

A decoder has a worker that decodes and a host that asks for source times.  The
host leaves its newest request in a mailbox of one slot, and the worker leaves
its newest frame in a slot of its own.  Copies of the newest generation and
epoch are stored outside the lock, where the worker reads them.
-/

namespace CollideOScope.Video

structure CodecFrameIdentity where
  sourceGeneration : ℕ
  pts : ℤ
  presentationOrdinal : ℕ
  deriving DecidableEq

abbrev Seconds := UInt64

def Seconds.isFinite (seconds : Seconds) : Bool := seconds.toNat % 2 ^ 63 < 0x7ff0000000000000

inductive DecodeCommand
  | select (generation : ℕ) (targetSeconds : Seconds)
  | stop

structure QueuedCommand where
  command : DecodeCommand
  epoch : ℕ
  previousAcceptedCodecIdentity : Option CodecFrameIdentity
  (preparedSeed continuous : Bool)

structure CommandMailboxState where
  pending : Option QueuedCommand
  (epoch generation : ℕ)
  stopped : Bool

/-- The guarded state, and the atomics beside it.  Counters wrap. -/
structure DecodeCommandMailbox where
  state : CommandMailboxState
  (currentEpoch currentGeneration : ℕ)
  stopped : Bool
  commandOverwrites : UInt64
  commandDrops : UInt64
  continuousRequests : UInt64
  (discontinuityRequests continuousOverwrites discontinuityOverwrites : UInt64)

/-- What the holder of the lock has still to store. -/
inductive Critical
  | free
  | select (generation epoch : ℕ)
  | selectEpoch (epoch : ℕ)
  | stop (epoch : ℕ)
  | stopEpoch (epoch : ℕ)
  deriving DecidableEq

/-- The arguments of `select_after_with_kind`. -/
structure SelectRequest where
  generation : ℕ
  targetSeconds : Seconds
  previousAcceptedCodecIdentity : Option CodecFrameIdentity
  preparedSeed : Bool

namespace DecodeCommandMailbox

def new : DecodeCommandMailbox where
  state := ⟨none, 1, 0, false⟩
  currentEpoch := 1
  currentGeneration := 0
  stopped := false
  commandOverwrites := 0
  commandDrops := 0
  continuousRequests := 0
  discontinuityRequests := 0
  continuousOverwrites := 0
  discontinuityOverwrites := 0

def queued (mailbox : DecodeCommandMailbox) (request : SelectRequest)
    (epoch : ℕ) : QueuedCommand where
  command := .select request.generation request.targetSeconds
  epoch
  previousAcceptedCodecIdentity :=
    request.previousAcceptedCodecIdentity.filter fun identity =>
      identity.sourceGeneration = request.generation
  preparedSeed := request.preparedSeed
  continuous := decide (request.generation = mailbox.state.generation)

def countRequest (mailbox : DecodeCommandMailbox) (request : SelectRequest) :
    DecodeCommandMailbox :=
  let continuous := decide (request.generation = mailbox.state.generation)
  let mailbox :=
    if continuous then { mailbox with continuousRequests := mailbox.continuousRequests + 1 }
    else { mailbox with discontinuityRequests := mailbox.discontinuityRequests + 1 }
  match mailbox.state.pending with
  | none => mailbox
  | some replaced =>
    let mailbox := { mailbox with commandOverwrites := mailbox.commandOverwrites + 1 }
    match replaced.command with
    | .select generation _ =>
      if generation = request.generation then
        { mailbox with continuousOverwrites := mailbox.continuousOverwrites + 1 }
      else { mailbox with discontinuityOverwrites := mailbox.discontinuityOverwrites + 1 }
    | .stop => { mailbox with discontinuityOverwrites := mailbox.discontinuityOverwrites + 1 }

/-- The locked part of `select_after_with_kind` before its stores. -/
def select (mailbox : DecodeCommandMailbox) (request : SelectRequest) :
    DecodeCommandMailbox × Critical × Except String Bool :=
  if ¬request.targetSeconds.isFinite then
    (mailbox, .free, .error "source-time selection must be finite")
  else if mailbox.state.stopped ∨
      request.generation < mailbox.state.generation then
    ({ mailbox with commandDrops := mailbox.commandDrops + 1 }, .free, .ok false)
  else match checkedWord 64 (mailbox.state.epoch + 1) with
    | none => (mailbox, .free, .error "decoder command epoch exhausted")
    | some epoch =>
      ({ mailbox.countRequest request with
          state :=
            { mailbox.state with
              epoch
              generation := request.generation
              pending := some (mailbox.queued request epoch) } },
        .select request.generation epoch, .ok true)

/-- The locked part of `stop` before its stores. -/
def stop (mailbox : DecodeCommandMailbox) : DecodeCommandMailbox × Critical :=
  if mailbox.state.stopped then (mailbox, .free)
  else
    let epoch := saturatingAddU64 mailbox.state.epoch 1
    ({ mailbox with
        commandOverwrites :=
          if mailbox.state.pending.isSome then mailbox.commandOverwrites + 1
          else mailbox.commandOverwrites
        state :=
          { mailbox.state with
            stopped := true
            epoch
            pending := some ⟨.stop, epoch, none, false, false⟩ } },
      .stop epoch)

/-- The next store of the holder of the lock, which is freed by the last. -/
def store (mailbox : DecodeCommandMailbox) : Critical → Option (DecodeCommandMailbox × Critical)
  | .free => none
  | .select generation epoch =>
    some ({ mailbox with currentGeneration := generation }, .selectEpoch epoch)
  | .selectEpoch epoch => some ({ mailbox with currentEpoch := epoch }, .free)
  | .stop epoch => some ({ mailbox with stopped := true }, .stopEpoch epoch)
  | .stopEpoch epoch => some ({ mailbox with currentEpoch := epoch }, .free)

theorem select_cases (mailbox : DecodeCommandMailbox) (request : SelectRequest) :
    (∃ error, mailbox.select request = (mailbox, .free, .error error)) ∨
      (mailbox.state.stopped ∨ request.generation < mailbox.state.generation) ∧
        mailbox.select request =
          ({ mailbox with commandDrops := mailbox.commandDrops + 1 }, .free, .ok false) ∨
      mailbox.state.stopped = false ∧
        mailbox.state.generation ≤ request.generation ∧
          mailbox.state.epoch + 1 < 2 ^ 64 ∧
            mailbox.select request =
              ({ mailbox.countRequest request with
                  state :=
                    { mailbox.state with
                      epoch := mailbox.state.epoch + 1
                      generation := request.generation
                      pending := some (mailbox.queued request (mailbox.state.epoch + 1)) } },
                .select request.generation (mailbox.state.epoch + 1),
                .ok true) := by
  by_cases hfin : request.targetSeconds.isFinite
  · by_cases hdrop : mailbox.state.stopped ∨ request.generation < mailbox.state.generation
    · right
      left
      exact ⟨hdrop, by simp [select, hfin, hdrop]⟩
    · cases hepoch : checkedWord 64 (mailbox.state.epoch + 1) with
      | none =>
        left
        exact ⟨_, by simp [select, hfin, hdrop, hepoch]; rfl⟩
      | some epoch =>
        right
        right
        have hsel := hepoch
        obtain ⟨hlt, rfl⟩ := checkedWord_eq_some.mp hepoch
        simp only [not_or, Bool.not_eq_true, not_lt] at hdrop
        refine ⟨hdrop.1, hdrop.2, hlt, ?_⟩
        simp [select, hfin, hdrop.1, hdrop.2.not_gt, hsel]
  · left
    exact ⟨_, by simp [select, hfin]; rfl⟩

theorem stop_cases (mailbox : DecodeCommandMailbox) :
    mailbox.state.stopped ∧ mailbox.stop = (mailbox, .free) ∨
      mailbox.state.stopped = false ∧ ∃ overwrites,
        mailbox.stop =
          ({ mailbox with
              commandOverwrites := overwrites
              state :=
                { mailbox.state with
                  stopped := true
                  epoch := saturatingAddU64 mailbox.state.epoch 1
                  pending :=
                    some ⟨.stop, saturatingAddU64 mailbox.state.epoch 1, none,
                      false, false⟩ } },
            .stop (saturatingAddU64 mailbox.state.epoch 1)) := by
  cases hstop : mailbox.state.stopped with
  | true =>
    left
    exact ⟨rfl, by simp [stop, hstop]⟩
  | false =>
    right
    exact ⟨rfl, _, by simp [stop, hstop]; rfl⟩

theorem store_state {mailbox next : DecodeCommandMailbox} {critical after : Critical}
    (h : mailbox.store critical = some (next, after)) :
    next.state = mailbox.state := by
  cases critical <;>
    simp only [store, reduceCtorEq, Option.some.injEq, Prod.mk.injEq] at h <;>
    obtain ⟨rfl, -⟩ := h <;> rfl

end DecodeCommandMailbox

/-- What the worker does with the motion of a frame. -/
class CodecMotion (M : Type) where
  /-- `retag_source_generation`. -/
  retag : ℕ → M → M
  /-- The status of `latest` is available. -/
  available : M → Bool
  /-- The destination of `exact_identity`. -/
  destination : M → Option CodecFrameIdentity

/-- A decoded frame; `picture` is what is passed through. -/
structure DecodedFrame (P M : Type) where
  picture : P
  codecMotion : Option M
  (loopGeneration sourceGeneration : ℕ)
  pts : Option ℤ
  codecIdentity : Option CodecFrameIdentity
  commandEpoch : ℕ

structure ReadyFrame (P M : Type) where
  picture : P
  codecMotion : Option M
  (loopsAdvanced sourceGeneration : ℕ)
  pts : Option ℤ
  codecIdentity : Option CodecFrameIdentity

/-- `DecodeWorkError`, or a frame. -/
inductive DecodeOutcome (P M : Type)
  | ok (frame : DecodedFrame P M)
  | failed (error : String)
  | superseded

structure Work where
  generation : ℕ
  targetSeconds : Seconds
  epoch : ℕ
  previousAcceptedCodecIdentity : Option CodecFrameIdentity
  (preparedSeed continuous : Bool)

def DecodedFrame.stamped {P M : Type} [CodecMotion M]
    (frame : DecodedFrame P M) (work : Work) : DecodedFrame P M :=
  let identity := (frame.codecIdentity.map fun identity =>
    { identity with sourceGeneration := work.generation }).filter
      fun identity => some identity.pts = frame.pts
  let motion := (frame.codecMotion.map (CodecMotion.retag work.generation)).filter
    fun motion => !CodecMotion.available motion ||
      (CodecMotion.destination motion).any fun destination => some destination = identity
  { frame with
    sourceGeneration := work.generation
    codecIdentity := identity
    codecMotion := motion
    commandEpoch := work.epoch }

/-- What host and worker share, without the timings. -/
structure SharedState (P M : Type) where
  latest : Option (DecodedFrame P M)
  frameOverwrites : ℕ
  frameDrops : ℕ
  staleCommands : ℕ
  supersededDecodeAttempts : ℕ
  staleCompletedFrames : ℕ
  (failedDecodeAttempts publishedFrames pendingFramesPeak : ℕ)
  commandError : Option (ℕ × ℕ × String)
  failure : Option String
  healthRevision : ℕ

namespace SharedState

variable {P M : Type}

def healthyWithSeed (seed : DecodedFrame P M) : SharedState P M where
  latest := some seed
  frameOverwrites := 0
  frameDrops := 0
  staleCommands := 0
  supersededDecodeAttempts := 0
  staleCompletedFrames := 0
  failedDecodeAttempts := 0
  publishedFrames := 1
  pendingFramesPeak := 1
  commandError := none
  failure := none
  healthRevision := 1

def publish (shared : SharedState P M) (frame : DecodedFrame P M) : SharedState P M :=
  { shared with
    latest := some frame
    frameOverwrites :=
      if shared.latest.isSome then saturatingAddU64 shared.frameOverwrites 1
      else shared.frameOverwrites
    publishedFrames := saturatingAddU64 shared.publishedFrames 1
    pendingFramesPeak := 1
    commandError := none }

def dropStaleCommand (shared : SharedState P M) : SharedState P M :=
  { shared with
    staleCommands := saturatingAddU64 shared.staleCommands 1
    frameDrops := saturatingAddU64 shared.frameDrops 1 }

def dropSupersededDecodeAttempt (shared : SharedState P M) : SharedState P M :=
  { shared with
    supersededDecodeAttempts := saturatingAddU64 shared.supersededDecodeAttempts 1
    frameDrops := saturatingAddU64 shared.frameDrops 1 }

def dropStaleCompletedFrame (shared : SharedState P M) : SharedState P M :=
  { shared with
    staleCompletedFrames := saturatingAddU64 shared.staleCompletedFrames 1
    frameDrops := saturatingAddU64 shared.frameDrops 1 }

def recordFailedDecodeAttempt (shared : SharedState P M) : SharedState P M :=
  { shared with failedDecodeAttempts := saturatingAddU64 shared.failedDecodeAttempts 1 }

def setFailed (shared : SharedState P M) (error : String) : SharedState P M :=
  if shared.failure.isSome then shared
  else
    { shared with
      failure := some error
      healthRevision := saturatingAddU64 shared.healthRevision 1 }

def complete [CodecMotion M] (shared : SharedState P M) (work : Work)
    (outcome : DecodeOutcome P M) (generationIsCurrent epochIsLatest : Bool) :
    SharedState P M :=
  if ¬generationIsCurrent then shared.dropSupersededDecodeAttempt
  else match outcome with
    | .ok frame => shared.publish (frame.stamped work)
    | .failed error =>
      let shared := shared.recordFailedDecodeAttempt
      if epochIsLatest then
        { shared with commandError := some (work.generation, work.epoch, error) }
      else shared
    | .superseded => shared.dropSupersededDecodeAttempt

def discardStale (shared : SharedState P M) (currentGeneration : ℕ) : SharedState P M :=
  let shared :=
    if shared.latest.any fun frame => frame.sourceGeneration ≠ currentGeneration
    then { shared with latest := none }.dropStaleCompletedFrame
    else shared
  if shared.commandError.any fun error => error.1 ≠ currentGeneration then
    { shared with commandError := none }
  else shared

end SharedState

end CollideOScope.Video
