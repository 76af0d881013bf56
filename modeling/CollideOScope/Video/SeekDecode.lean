import CollideOScope.Video.Mailbox

/-!
# Pictures, keyframes and cached frames

A video is a sequence of pictures with increasing timestamps, an index of some
of its keyframes, and what FFmpeg delivers after a seek to one of them.  Frames
that were decoded lately are kept for selections that go backward.

Seconds are rational numbers, and every operation on them rounds its result by
one monotone function: the identity gives exact seconds, rounding to the nearest
double those of the source.
-/

namespace CollideOScope.Video

/-- A packet of the container.  Submitting one of the video stream completes
some pictures, which are named by their timestamps. -/
inductive Packet
  | video (pictures : List ℤ)
  | other

def Packet.pictures : Packet → List ℤ
  | .video pictures => pictures
  | .other => []

def maxPacketsWithoutFrame : ℕ := 4096

/-- No picture takes more packets than a reader waits for. -/
def PromptPackets : ℕ → List Packet → Prop
  | _, [] => True
  | count, .other :: packets => PromptPackets count packets
  | count, .video pictures :: packets =>
    count < maxPacketsWithoutFrame ∧ PromptPackets (if pictures = [] then count + 1 else 0) packets

instance decidablePromptPackets :
    (count : ℕ) → (packets : List Packet) → Decidable (PromptPackets count packets)
  | _, [] => isTrue trivial
  | count, .other :: packets => decidablePromptPackets count packets
  | count, .video pictures :: packets =>
    have := decidablePromptPackets (if pictures = [] then count + 1 else 0) packets
    inferInstanceAs (Decidable (count < maxPacketsWithoutFrame ∧
      PromptPackets (if pictures = [] then count + 1 else 0) packets))

/-- The packets that were not read, the pictures that were completed but not
received, and those that come when there are no more packets. -/
structure Ffmpeg where
  packets : List Packet
  (ready delayed : List ℤ)

def Ffmpeg.pictures (ffmpeg : Ffmpeg) : List ℤ :=
  ffmpeg.ready ++ ffmpeg.packets.flatMap Packet.pictures ++ ffmpeg.delayed

/-- The pictures that come next take no more packets than a reader waits for
that has read some. -/
def Ffmpeg.Prompt (ffmpeg : Ffmpeg) (count : ℕ) : Prop :=
  PromptPackets (if ffmpeg.ready = [] then count else 0) ffmpeg.packets

structure KeyframeEntry where
  pts : ℤ
  sourceSeconds : ℚ
  deriving DecidableEq

/-- A video, as its decoder sees it.  The duration is zero when the container
reports none. -/
structure VideoSource where
  round : ℚ → ℚ
  pictures : List ℤ
  startPts : ℤ
  (timeBase durationSeconds fps : ℚ)
  /-- The timestamps of the indexed keyframes. -/
  keyframes : List ℤ
  /-- FFmpeg after a seek to an indexed keyframe and a flush. -/
  sought : ℤ → Ffmpeg
  (maxCacheBytes maxCacheFrames : ℕ)
  round_monotone : Monotone round
  pictures_increasing : pictures.Pairwise (· < ·)
  pictures_ne : pictures ≠ []
  timeBase_nonneg : 0 ≤ timeBase
  keyframes_sublist : keyframes.Sublist pictures
  keyframes_first : keyframes.head? = pictures.head?
  /-- Every picture from the keyframe onward is delivered. -/
  sought_pictures : ∀ pts ∈ keyframes,
    (sought pts).pictures = pictures.dropWhile fun picture => picture < pts
  sought_prompt : ∀ pts ∈ keyframes, (sought pts).Prompt 0

/-- `i64::saturating_sub`. -/
def saturatingSubI64 (a b : ℤ) : ℤ := max (-2 ^ 63) (min (2 ^ 63 - 1) (a - b))

/-- `finite_nonnegative`, for finite values. -/
def finiteNonnegative (value : ℚ) : ℚ := max value 0

namespace VideoSource

variable (video : VideoSource)

def add (a b : ℚ) : ℚ := video.round (a + b)

def sub (a b : ℚ) : ℚ := video.round (a - b)

def mul (a b : ℚ) : ℚ := video.round (a * b)

/-- `timestamp_to_source_seconds`. -/
def sourceSeconds (pts : ℤ) : ℚ :=
  finiteNonnegative (video.mul (video.round (saturatingSubI64 pts video.startPts)) video.timeBase)

/-- The period of a frame; there is at least one in a second. -/
def framePeriod : ℚ := video.round (1 / max video.fps 1)

/-- The entries of `KeyframeIndex`. -/
def keyframeIndex : List KeyframeEntry :=
  video.keyframes.map fun pts => ⟨pts, video.sourceSeconds pts⟩

/-- `KeyframeIndex::preceding`.  The index has at least one entry. -/
def preceding (targetSeconds : ℚ) : KeyframeEntry :=
  let targetSeconds := finiteNonnegative targetSeconds
  let before := video.keyframeIndex.takeWhile
    fun entry => entry.sourceSeconds ≤ targetSeconds
  video.keyframeIndex.getD (before.length - 1) ⟨video.startPts, 0⟩

/-- The target within the duration, if that is known. -/
def clampTarget (targetSeconds : ℚ) : ℚ :=
  if 0 < video.durationSeconds then min (max targetSeconds 0) video.durationSeconds
  else max targetSeconds 0

end VideoSource

/-- `FrameMetadata`; every picture has a timestamp. -/
structure FrameMetadata where
  sourceGeneration : ℕ
  pts : ℤ
  sourceSeconds : ℚ
  deriving DecidableEq

structure CachedFrame where
  bytes : ℕ
  metadata : FrameMetadata

/-- `ReverseFrameCache`, the oldest frame first. -/
structure ReverseFrameCache where
  frames : List CachedFrame
  bytes : ℕ

namespace ReverseFrameCache

def empty : ReverseFrameCache := ⟨[], 0⟩

/-- The oldest frames are evicted until there is room for one more. -/
def evict (maxBytes maxFrames frameBytes : ℕ) : List CachedFrame → ℕ → ReverseFrameCache
  | [], bytes => ⟨[], bytes⟩
  | frame :: frames, bytes =>
    if maxFrames ≤ frames.length + 1 ∨ maxBytes < bytes + frameBytes then
      evict maxBytes maxFrames frameBytes frames (bytes - frame.bytes)
    else ⟨frame :: frames, bytes⟩

/-- `insert`; it fails if the allocator refuses a slot. -/
def insert (video : VideoSource) (cache : ReverseFrameCache)
    (frame : CachedFrame) (slot : Bool) : Option ReverseFrameCache :=
  if video.maxCacheBytes < frame.bytes ∨ video.maxCacheFrames = 0 then some empty
  else if slot then
    let cache := evict video.maxCacheBytes video.maxCacheFrames frame.bytes
      cache.frames cache.bytes
    some ⟨cache.frames ++ [frame], cache.bytes + frame.bytes⟩
  else none

def insertOrClear (video : VideoSource) (cache : ReverseFrameCache)
    (frame : CachedFrame) (slot : Bool) : ReverseFrameCache :=
  (cache.insert video frame slot).getD empty

def nearAtOrBefore (video : VideoSource) (cache : ReverseFrameCache)
    (targetSeconds : ℚ) (sourceGeneration : ℕ) (maxAgeSeconds : ℚ) :
    Option FrameMetadata :=
  let targetSeconds := finiteNonnegative targetSeconds
  let maxAgeSeconds := finiteNonnegative maxAgeSeconds
  (cache.frames.reverse.find? fun frame =>
    frame.metadata.sourceSeconds ≤ video.add targetSeconds (1 / 2 ^ 52) ∧
      video.sub targetSeconds frame.metadata.sourceSeconds ≤ maxAgeSeconds).map
    fun frame => { frame.metadata with sourceGeneration }

end ReverseFrameCache

/-!
## Selecting a picture

A request for a source time continues forward from where the decoder is, or
seeks to the indexed keyframe before it, and decodes until a picture reaches
the target.
-/

structure SeekRequest where
  /-- Nothing, if the target is not finite. -/
  targetSeconds : Option ℚ
  sourceGeneration : ℕ
  previousAcceptedIdentity : Option CodecFrameIdentity
  maxForwardPeriods : Option ℕ
  deriving DecidableEq

/-- The causes of `DecodeWorkError::Failed`. -/
inductive SeekFailure
  | nonFiniteTarget | cancelled | seek | packetsWithoutFrame | submit
  | materialize (error : String)
  | noTerminalFrame | reachedEof | exhaustedWindow
  deriving DecidableEq

inductive DecodeWorkError
  | superseded
  | failed (failure : SeekFailure)
  deriving DecidableEq

/-- `StreamPosition`: where the live decoder is recorded to be. -/
structure StreamPosition where
  sourceSeconds : ℚ
  pts : ℤ

def maxSeekDecodeFrames : ℕ := 4096

def seekReverseTailPeriods : ℚ := 4

/-- A request past its first checks: its target is clamped and the keyframe
before it is looked up. -/
structure Selection where
  request : SeekRequest
  targetSeconds : ℚ
  keyframe : KeyframeEntry
  continueForward : Bool
  deriving DecidableEq

/-- The loop of `walk_to_target`. -/
structure SeekWalk where
  selection : Selection
  targetSeconds : ℚ
  left : ℕ
  newestTerminal : Option FrameMetadata
  deriving DecidableEq

inductive SeekPhase
  | idle
  /-- A frame of the reverse cache is checked before it is served. -/
  | cached (request : SeekRequest) (metadata : FrameMetadata)
  | seeking (selection : Selection)
  | walking (walk : SeekWalk)
  | receiving (walk : SeekWalk) (packetsWithoutFrame : ℕ)
  | reading (walk : SeekWalk) (packetsWithoutFrame : ℕ)
  | decoded (walk : SeekWalk) (pts : ℤ)
  | finishing (walk : SeekWalk) (reachedEof : Bool)
  | served (request : SeekRequest) (metadata : FrameMetadata)
  | selected (selection : Selection) (metadata : FrameMetadata)
  | failed (request : SeekRequest) (error : DecodeWorkError)
  deriving DecidableEq

/-- `VideoDecoder`. -/
structure VideoDecoder where
  ffmpeg : Ffmpeg
  lastSourceSeconds : ℚ
  streamPosition : Option StreamPosition
  reverseCache : ReverseFrameCache
  cancelled : Bool
  phase : SeekPhase

section

variable (video : VideoSource)

/-- `is_strict_reverse_request`, for finite values. -/
def isStrictReverseRequest (targetSeconds lastSourceSeconds : ℚ) : Bool :=
  0 ≤ targetSeconds ∧ 0 ≤ lastSourceSeconds ∧ 0 < video.framePeriod ∧
    video.add targetSeconds (video.mul video.framePeriod (1 / 4)) < lastSourceSeconds

def canContinueForward (position : Option StreamPosition) (targetSeconds keyframeSeconds : ℚ)
    (previousAcceptedIdentity : Option CodecFrameIdentity) : Bool :=
  match position with
  | none => false
  | some position =>
    if position.sourceSeconds < keyframeSeconds then false
    else if targetSeconds ≤
        video.add position.sourceSeconds (video.mul video.framePeriod (1 / 2)) then
      false
    else
      match previousAcceptedIdentity with
      | some identity => identity.pts ≤ position.pts
      | none => true

def boundedContinuousWalkTarget (position : Option StreamPosition)
    (requestedTargetSeconds : ℚ) (maxForwardPeriods : Option ℕ) : ℚ :=
  match maxForwardPeriods, position with
  | some periods, some position =>
    if video.framePeriod ≤ 0 then requestedTargetSeconds
    else
      min requestedTargetSeconds
        (video.add position.sourceSeconds (video.mul video.framePeriod (max periods 1 : ℕ)))
  | _, _ => requestedTargetSeconds

/-- The test of `walk_to_target` that selects a picture. -/
def Reached (targetSeconds : ℚ) (pts : ℤ) : Prop :=
  targetSeconds ≤ video.add (video.sourceSeconds pts) (video.mul video.framePeriod (1 / 2))

instance (targetSeconds : ℚ) (pts : ℤ) : Decidable (Reached video targetSeconds pts) :=
  inferInstanceAs (Decidable (targetSeconds ≤ video.add (video.sourceSeconds pts)
    (video.mul video.framePeriod (1 / 2))))

/-- The end of the video is near enough for its last picture. -/
def TerminalTarget (targetSeconds : ℚ) : Prop :=
  0 < video.durationSeconds ∧ video.durationSeconds ≤ video.add targetSeconds video.framePeriod

instance (targetSeconds : ℚ) : Decidable (TerminalTarget video targetSeconds) :=
  inferInstanceAs (Decidable (0 < video.durationSeconds ∧
    video.durationSeconds ≤ video.add targetSeconds video.framePeriod))

/-- The picture is close enough to the target for the reverse cache. -/
def InReverseTail (targetSeconds sourceSeconds : ℚ) : Prop :=
  targetSeconds ≤ video.add sourceSeconds (video.mul seekReverseTailPeriods video.framePeriod)

instance (targetSeconds sourceSeconds : ℚ) :
    Decidable (InReverseTail video targetSeconds sourceSeconds) :=
  inferInstanceAs (Decidable (targetSeconds ≤ video.add sourceSeconds
    (video.mul seekReverseTailPeriods video.framePeriod)))

def decodedFrameMetadata (sourceGeneration : ℕ) (pts : ℤ) : FrameMetadata where
  sourceGeneration
  pts
  sourceSeconds := video.sourceSeconds pts

end

/-- What the demuxer does on a seek; one that fails leaves it anywhere. -/
inductive SeekOutcome
  | sought
  | failed (ffmpeg : Ffmpeg)

/-- The answers from outside.  An image is made with its number of bytes, or it
is refused. -/
inductive SeekLabel
  | cancel
  | begin (request : SeekRequest) (current : Bool)
  | serve (current : Bool)
  | seek (outcome : SeekOutcome) (current : Bool)
  | iterate (current : Bool)
  | receive (current : Bool)
  | read (current accepted : Bool)
  | observe (image : Except String ℕ) (slot : Bool)
  | finish (current : Bool) (image : Except String ℕ) (slot : Bool)

namespace VideoDecoder

variable (video : VideoSource)

def opened (ffmpeg : Ffmpeg) : VideoDecoder where
  ffmpeg
  lastSourceSeconds := 0
  streamPosition := none
  reverseCache := .empty
  cancelled := false
  phase := .idle

def checkWorkCurrent (decoder : VideoDecoder) (current : Bool) : Option DecodeWorkError :=
  if ¬ current then some .superseded
  else if decoder.cancelled then some (.failed .cancelled)
  else none

def fail (decoder : VideoDecoder) (request : SeekRequest)
    (error : DecodeWorkError) : VideoDecoder :=
  { decoder with phase := .failed request error }

/-- A failed walk: one that continued forward is done again after a seek. -/
def failWalk (decoder : VideoDecoder) (selection : Selection)
    (failure : SeekFailure) : VideoDecoder :=
  if selection.continueForward then
    { decoder with phase := .seeking { selection with continueForward := false } }
  else decoder.fail selection.request (.failed failure)

def stopWalk (decoder : VideoDecoder) (selection : Selection) : DecodeWorkError → VideoDecoder
  | .superseded => decoder.fail selection.request .superseded
  | .failed failure => decoder.failWalk selection failure

/-- The start of `walk_to_target`. -/
def walk (decoder : VideoDecoder) (selection : Selection) : VideoDecoder :=
  let targetSeconds :=
    if selection.continueForward then
      boundedContinuousWalkTarget video decoder.streamPosition
        selection.targetSeconds selection.request.maxForwardPeriods
    else selection.targetSeconds
  { decoder with phase := .walking ⟨selection, targetSeconds, maxSeekDecodeFrames, none⟩ }

/-- The frame of the reverse cache for a request that goes backward. -/
def reverseHit (decoder : VideoDecoder) (request : SeekRequest)
    (targetSeconds : ℚ) : Option FrameMetadata :=
  if isStrictReverseRequest video targetSeconds decoder.lastSourceSeconds then
    decoder.reverseCache.nearAtOrBefore video targetSeconds
      request.sourceGeneration (video.mul video.framePeriod (3 / 2))
  else none

/-- The start of `seek_decode_internal`. -/
def begin (decoder : VideoDecoder) (request : SeekRequest) (current : Bool) : VideoDecoder :=
  match request.targetSeconds with
  | none => decoder.fail request (.failed .nonFiniteTarget)
  | some targetSeconds =>
    match decoder.checkWorkCurrent current with
    | some error => decoder.fail request error
    | none =>
      let targetSeconds := video.clampTarget targetSeconds
      match decoder.reverseHit video request targetSeconds with
      | some metadata => { decoder with phase := .cached request metadata }
      | none =>
        let previousAcceptedIdentity :=
          request.previousAcceptedIdentity.filter fun identity =>
            identity.sourceGeneration = request.sourceGeneration
        let keyframe := video.preceding targetSeconds
        let continueForward :=
          canContinueForward video decoder.streamPosition targetSeconds
            keyframe.sourceSeconds previousAcceptedIdentity
        let selection : Selection := { request, targetSeconds, keyframe, continueForward }
        if continueForward then decoder.walk video selection
        else { decoder with phase := .seeking selection }

def adoptSelectedMetadata (decoder : VideoDecoder) (metadata : FrameMetadata) : VideoDecoder :=
  { decoder with lastSourceSeconds := metadata.sourceSeconds }

/-- `seek_to_preceding_keyframe`, and the check after it. -/
def seek (decoder : VideoDecoder) (selection : Selection)
    (outcome : SeekOutcome) (current : Bool) : VideoDecoder :=
  if decoder.cancelled then decoder.fail selection.request (.failed .cancelled)
  else
    let decoder := { decoder with streamPosition := none }
    match outcome with
    | .failed ffmpeg => { decoder with ffmpeg }.fail selection.request (.failed .seek)
    | .sought =>
      let decoder := { decoder with ffmpeg := video.sought selection.keyframe.pts }
      match decoder.checkWorkCurrent current with
      | some error => decoder.fail selection.request error
      | none => decoder.walk video selection

/-- The state that `observe_decoded_frame` records. -/
def observeDecodedFrame (decoder : VideoDecoder) (metadata : FrameMetadata) : VideoDecoder :=
  { decoder with streamPosition := some ⟨metadata.sourceSeconds, metadata.pts⟩ }

def commitMaterializedFrame (decoder : VideoDecoder) (selection : Selection)
    (metadata : FrameMetadata) (bytes : ℕ) (slot : Bool) : VideoDecoder :=
  { decoder.adoptSelectedMetadata metadata with
    reverseCache := decoder.reverseCache.insertOrClear video ⟨bytes, metadata⟩ slot
    phase := .selected selection metadata }

/-- `cache_observed_reverse_tail_frame`; the cache is cleared if it fails. -/
def cacheObservedReverseTailFrame (decoder : VideoDecoder)
    (metadata : FrameMetadata) (image : Except String ℕ) (slot : Bool) :
    VideoDecoder :=
  { decoder with
    reverseCache :=
      match image with
      | .ok bytes => decoder.reverseCache.insertOrClear video ⟨bytes, metadata⟩ slot
      | .error _ => .empty }

def iterate (decoder : VideoDecoder) (walk : SeekWalk) (current : Bool) : VideoDecoder :=
  match walk.left with
  | 0 => { decoder with phase := .finishing walk false }
  | left + 1 =>
    match decoder.checkWorkCurrent current with
    | some error => decoder.stopWalk walk.selection error
    | none => { decoder with phase := .receiving { walk with left } 0 }

/-- `receive_frame`, after its check. -/
def receive (decoder : VideoDecoder) (walk : SeekWalk)
    (packetsWithoutFrame : ℕ) (current : Bool) : VideoDecoder :=
  match decoder.checkWorkCurrent current with
  | some error => decoder.stopWalk walk.selection error
  | none =>
    match decoder.ffmpeg.ready with
    | pts :: ready =>
      { decoder with
        ffmpeg := { decoder.ffmpeg with ready }
        phase := .decoded walk pts }
    | [] => { decoder with phase := .reading walk packetsWithoutFrame }

/-- `next_video_packet_interruptible`, and the submission of the packet.  The
packet is gone when the request turns out not to be current. -/
def read (decoder : VideoDecoder) (walk : SeekWalk) (packetsWithoutFrame : ℕ)
    (current accepted : Bool) : VideoDecoder :=
  match decoder.ffmpeg.packets with
  | [] =>
    match decoder.ffmpeg.delayed with
    | pts :: ready =>
      { decoder with
        ffmpeg := { decoder.ffmpeg with ready, delayed := [] }
        phase := .decoded walk pts }
    | [] => { decoder with phase := .finishing walk true }
  | packet :: packets =>
    let decoder := { decoder with ffmpeg := { decoder.ffmpeg with packets } }
    match decoder.checkWorkCurrent current with
    | some error => decoder.stopWalk walk.selection error
    | none =>
      match packet with
      | .other => { decoder with phase := .reading walk packetsWithoutFrame }
      | .video pictures =>
        if maxPacketsWithoutFrame ≤ packetsWithoutFrame then
          decoder.failWalk walk.selection .packetsWithoutFrame
        else if ¬ accepted then decoder.failWalk walk.selection .submit
        else
          { decoder with
            ffmpeg := { decoder.ffmpeg with ready := decoder.ffmpeg.ready ++ pictures }
            phase := .receiving walk (packetsWithoutFrame + 1) }

/-- A picture is selected or skipped.  An image that is selected is made before
the picture is observed. -/
def observe (decoder : VideoDecoder) (walk : SeekWalk) (pts : ℤ)
    (image : Except String ℕ) (slot : Bool) : VideoDecoder :=
  let metadata := decodedFrameMetadata video walk.selection.request.sourceGeneration pts
  if Reached video walk.targetSeconds pts then
    match image with
    | .error error => decoder.failWalk walk.selection (.materialize error)
    | .ok bytes =>
      (decoder.observeDecodedFrame metadata).commitMaterializedFrame video
        walk.selection metadata bytes slot
  else
    let decoder := decoder.observeDecodedFrame metadata
    if TerminalTarget video walk.targetSeconds then
      { decoder with phase := .walking { walk with newestTerminal := some metadata } }
    else if walk.selection.request.maxForwardPeriods = none ∧
        InReverseTail video walk.targetSeconds metadata.sourceSeconds then
      { decoder.cacheObservedReverseTailFrame video metadata image slot with
        phase := .walking walk }
    else { decoder with phase := .walking walk }

/-- The end of `walk_to_target`, with `finish_unreached_seek`. -/
def finish (decoder : VideoDecoder) (walk : SeekWalk) (reachedEof current : Bool)
    (image : Except String ℕ) (slot : Bool) : VideoDecoder :=
  if reachedEof ∧ TerminalTarget video walk.targetSeconds then
    match walk.newestTerminal with
    | none => decoder.failWalk walk.selection .noTerminalFrame
    | some metadata =>
      match decoder.checkWorkCurrent current with
      | some error => decoder.stopWalk walk.selection error
      | none =>
        match image with
        | .error error => decoder.failWalk walk.selection (.materialize error)
        | .ok bytes => decoder.commitMaterializedFrame video walk.selection metadata bytes slot
  else decoder.failWalk walk.selection (if reachedEof then .reachedEof else .exhaustedWindow)

/-- A frame of the reverse cache, after its check. -/
def serve (decoder : VideoDecoder) (request : SeekRequest)
    (metadata : FrameMetadata) (current : Bool) : VideoDecoder :=
  match decoder.checkWorkCurrent current with
  | some error => decoder.fail request error
  | none => { decoder.adoptSelectedMetadata metadata with phase := .served request metadata }

def Resting (decoder : VideoDecoder) : Prop :=
  match decoder.phase with
  | .idle | .served _ _ | .selected _ _ | .failed _ _ => True
  | _ => False

instance (decoder : VideoDecoder) : Decidable decoder.Resting := by
  unfold Resting
  split <;> infer_instance

end VideoDecoder

def seekStep (video : VideoSource) (decoder : VideoDecoder) : SeekLabel → Option VideoDecoder
  | .cancel => some { decoder with cancelled := true }
  | .begin request current =>
    if decoder.Resting then some (decoder.begin video request current) else none
  | .serve current =>
    match decoder.phase with
    | .cached request metadata => some (decoder.serve request metadata current)
    | _ => none
  | .seek outcome current =>
    match decoder.phase with
    | .seeking selection => some (decoder.seek video selection outcome current)
    | _ => none
  | .iterate current =>
    match decoder.phase with
    | .walking walk => some (decoder.iterate walk current)
    | _ => none
  | .receive current =>
    match decoder.phase with
    | .receiving walk count => some (decoder.receive walk count current)
    | _ => none
  | .read current accepted =>
    match decoder.phase with
    | .reading walk count => some (decoder.read walk count current accepted)
    | _ => none
  | .observe image slot =>
    match decoder.phase with
    | .decoded walk pts => some (decoder.observe video walk pts image slot)
    | _ => none
  | .finish current image slot =>
    match decoder.phase with
    | .finishing walk reachedEof => some (decoder.finish video walk reachedEof current image slot)
    | _ => none

def seekMachine (video : VideoSource) : Machine VideoDecoder SeekLabel where
  start decoder := ∃ ffmpeg, decoder = .opened ffmpeg
  step := seekStep video

end CollideOScope.Video
