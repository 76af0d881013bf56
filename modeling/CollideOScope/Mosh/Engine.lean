import CollideOScope.Support.Epochs
import CollideOScope.Support.Rounding
import CollideOScope.Support.Words

/-!
# What happens to a chunk between encoder and decoder

An encoder's packets are chunks, and the wire between the encoder and the
decoder is broken on purpose: a key chunk may be removed, a delta chunk may be
dropped, held or followed by an old one.  The dice are a hash of the ordinal of
the frame, the index of the packet, a seed and a lane for each decision.

Old deltas come from a ring, which evicts its oldest chunks.
-/

namespace CollideOScope.Mosh

open List

open F32 (finiteClamp)

/-- `CodecMoshParams`. -/
structure CodecMoshParams where
  amount : F32
  keyRemoval : F32
  (hold drop shuffle rate bitrateStarve resync wipe smear trail : F32)
  recycle : Bool

def CodecMoshParams.default : CodecMoshParams where
  amount := 0
  keyRemoval := 0.95
  hold := 0.25
  drop := 0
  shuffle := 0
  rate := 0.5
  bitrateStarve := 0.35
  resync := 0
  wipe := 0
  smear := 0
  trail := 0
  recycle := false

def finiteUnitOr (value neutral : F32) : F32 := finiteClamp value neutral 0 1

def CodecMoshParams.sanitized (p : CodecMoshParams) : CodecMoshParams where
  amount := finiteUnitOr p.amount default.amount
  keyRemoval := finiteUnitOr p.keyRemoval default.keyRemoval
  hold := finiteUnitOr p.hold default.hold
  drop := finiteUnitOr p.drop default.drop
  shuffle := finiteUnitOr p.shuffle default.shuffle
  rate := finiteUnitOr p.rate default.rate
  bitrateStarve := finiteUnitOr p.bitrateStarve default.bitrateStarve
  resync := finiteUnitOr p.resync default.resync
  wipe := finiteUnitOr p.wipe default.wipe
  smear := finiteUnitOr p.smear default.smear
  trail := finiteUnitOr p.trail default.trail
  recycle := p.recycle

/-- `MOSH_AMOUNT_DEADBAND`. -/
def amountDeadband : F32 := 0.003

/-- `is_active`, on sanitized parameters. -/
def CodecMoshParams.active (p : CodecMoshParams) : Bool := amountDeadband.le p.amount

def CodecMoshParams.motionShapingActive (p : CodecMoshParams) : Bool :=
  amountDeadband.le p.sanitized.wipe || amountDeadband.le p.sanitized.smear

def moshAvalanche (value : UInt32) : UInt32 :=
  let x := (value ^^^ (value >>> 16)) * 0x7feb352d
  let x := (x ^^^ (x >>> 15)) * 0x846ca68b
  x ^^^ (x >>> 16)

/-- `MOSH_HASH_DOMAIN`. -/
def hashDomain : UInt32 := 0x434d5348

/-- `mosh_hash`: twenty-four bits as a fraction of one. -/
def moshHash (ordinal : UInt64) (packetIndex seed lane : UInt32) : F32 :=
  let low := ordinal.toUInt32
  let high := (ordinal >>> 32).toUInt32
  let mixed := moshAvalanche
    (low ^^^ high * 0x9e3779b9 ^^^ packetIndex * 0x85ebca6b ^^^
      seed * 0x27d4eb2f ^^^ lane * 0x165667b1 ^^^ hashDomain)
  F32.round ((mixed &&& 0x00ffffff).toNat * 2 ^ 125)

def laneKey : UInt32 := 1

def laneDrop : UInt32 := 2

def laneHoldGate : UInt32 := 3

def laneHoldCount : UInt32 := 4

def laneShuffleGate : UInt32 := 5

def laneShufflePick : UInt32 := 6

/-- `value.floor() as usize`, for a value that is finite and not negative. -/
def floorToNat (value : F32) : ℕ := (value.value / F32.scale).toNat

inductive MoshKeyDecision
  | emit | remove

def decideKeyChunk (params : CodecMoshParams) (ordinal : UInt64)
    (packetIndex seed : UInt32) (bootstrapPending : Bool) : MoshKeyDecision :=
  if bootstrapPending then .emit
  else if (moshHash ordinal packetIndex seed laneKey).lt params.sanitized.keyRemoval then .remove
  else .emit

structure MoshDeltaDecision where
  dropped : Bool
  extraRepeats : ℕ
  shufflePick : Option F32

def decideDeltaChunk (params : CodecMoshParams) (ordinal : UInt64)
    (packetIndex seed : UInt32) : MoshDeltaDecision :=
  let params := params.sanitized
  let dice := moshHash ordinal packetIndex seed
  if (dice laneDrop).lt (params.drop * params.rate) then ⟨true, 0, none⟩
  else
    { dropped := false
      extraRepeats :=
        if (dice laneHoldGate).lt (params.hold * params.rate) then
          1 + floorToNat (dice laneHoldCount * params.hold * 5)
        else 0
      shufflePick :=
        if (dice laneShuffleGate).lt (params.shuffle * params.rate) then some (dice laneShufflePick)
        else none }

/-- A chunk; the serial tells apart chunks of equal bytes. -/
structure Chunk where
  serial : ℕ
  bytes : Bytes

/-- `MOSH_RING_MAX_CHUNKS`. -/
def ringMaxChunks : ℕ := 90

/-- `MOSH_RING_MAX_BYTES`. -/
def ringMaxBytes : ℕ := 8 * 1024 * 1024

/-- `MOSH_RING_SHUFFLE_GATE`. -/
def ringShuffleGate : ℕ := 10

/-- `MOSH_RING_NEWEST_EXCLUDED`. -/
def ringNewestExcluded : ℕ := 6

/-- `MoshChunkRing`, the oldest chunk first. -/
structure MoshChunkRing where
  entries : List Chunk
  bytes : ℕ

namespace MoshChunkRing

def empty : MoshChunkRing := ⟨[], 0⟩

def evict : List Chunk → ℕ → MoshChunkRing
  | [], bytes => ⟨[], bytes⟩
  | oldest :: rest, bytes =>
    if ringMaxChunks < (oldest :: rest).length ∨ ringMaxBytes < bytes then
      evict rest (bytes - oldest.bytes.length)
    else ⟨oldest :: rest, bytes⟩

def push (ring : MoshChunkRing) (chunk : Chunk) : MoshChunkRing :=
  evict (ring.entries ++ [chunk]) (ring.bytes + chunk.bytes.length)

def pick (ring : MoshChunkRing) (unit : F32) : Option Chunk :=
  if ring.entries.length ≤ ringShuffleGate then none
  else
    let selectable := ring.entries.length - ringNewestExcluded
    let unit := finiteUnitOr unit 0
    let index := min (floorToNat (unit * F32.round (selectable * F32.scale)))
      (selectable - 1)
    ring.entries[index]?

def totalBytes (chunks : List Chunk) : ℕ := (chunks.map fun chunk => chunk.bytes.length).sum

/-- The byte count is right and both caps hold. -/
structure Bounded (ring : MoshChunkRing) : Prop where
  bytes_eq : ring.bytes = totalBytes ring.entries
  bytes_le : ring.bytes ≤ ringMaxBytes
  length_le : ring.entries.length ≤ ringMaxChunks

theorem bounded_empty : Bounded empty := by
  constructor <;> decide

theorem evict_spec (entries : List Chunk) :
    Bounded (evict entries (totalBytes entries)) ∧
      (evict entries (totalBytes entries)).entries.IsSuffix entries := by
  induction entries with
  | nil => exact ⟨bounded_empty, suffix_refl _⟩
  | cons oldest rest ih =>
    rw [evict]
    split_ifs with hfull
    · have hless : totalBytes (oldest :: rest) - oldest.bytes.length = totalBytes rest := by
        simp [totalBytes]
      rw [hless]
      exact ⟨ih.1, ih.2.trans (suffix_cons _ _)⟩
    · obtain ⟨hcnt, hbytes⟩ := not_or.mp hfull
      exact ⟨⟨rfl, not_lt.mp hbytes, not_lt.mp hcnt⟩, suffix_refl _⟩

variable {ring : MoshChunkRing}

theorem push_spec (h : Bounded ring) (chunk : Chunk) :
    Bounded (ring.push chunk) ∧ (ring.push chunk).entries.IsSuffix (ring.entries ++ [chunk]) := by
  have htot : ring.bytes + chunk.bytes.length = totalBytes (ring.entries ++ [chunk]) := by
    simp [totalBytes, h.bytes_eq]
  rw [push, htot]
  exact evict_spec _

theorem pick_spec {unit : F32} {chunk : Chunk} (h : ring.pick unit = some chunk) :
    ∃ older newest, ring.entries = older ++ newest ∧
      newest.length = ringNewestExcluded ∧ chunk ∈ older := by
  rw [pick] at h
  split_ifs at h with hfew
  have hmany : ringShuffleGate < ring.entries.length := not_le.mp hfew
  have hgate : ringNewestExcluded < ringShuffleGate := by decide
  refine ⟨ring.entries.take (ring.entries.length - ringNewestExcluded),
    ring.entries.drop (ring.entries.length - ringNewestExcluded),
    (take_append_drop _ _).symm, ?_, ?_⟩
  · rw [length_drop]
    omega
  · have hlt : min (floorToNat (finiteUnitOr unit 0 *
          F32.round ((ring.entries.length - ringNewestExcluded : ℕ) *
            F32.scale))) (ring.entries.length - ringNewestExcluded - 1) <
        ring.entries.length - ringNewestExcluded := by
      omega
    rw [← getElem?_take_of_lt hlt] at h
    exact mem_of_getElem? h

end MoshChunkRing

/-!
## The round trip through encoder and decoder

The engine feeds a picture to an encoder, breaks the wire, and feeds what is
left to a decoder.  Its stream is reset when the size changes, when the bitrate
moves far enough, when motion vectors are switched on, and when the decoder or
the output path fails.

What the codec library answers is given from outside: the packets of a frame,
what each feed of the decoder returns, and whether each context opens.  The
stage carries a log of what it did, which no step reads.  The arithmetic of
pixels and the analysis of motion are left out; an image is known by its length
and by the moment it was stored.
-/

inductive Pixel
  | yuv420p | other
  deriving DecidableEq

structure Picture where
  serial : ℕ
  format : Pixel
  (width height : ℕ)

structure Image where
  (serial length : ℕ)

inductive FeedRole
  | key | delta | hold
  | shuffled (ring : List Chunk)

inductive Event
  | reset
  | encoded (forced : Bool) (recycled : Option Image)
  | drained (chunk : Chunk) (key : Bool)
  | fed (chunk : Chunk) (role : FeedRole)
  | accepted (chunk : Chunk) (role : FeedRole)
  | decoded (picture : Picture)
  | blended (picture : Picture) (recycled : Option Image)
  | stored (image : Image)

def Event.isReset : Event → Bool
  | reset => true
  | _ => false

/-- Laws in double precision: nothing below depends on what they return. -/
structure DoubleLaws where
  moshDimensions : ℕ → ℕ → ℕ × ℕ
  targetBitrate : F32 → ℕ
  resyncFrames : F32 → ℕ

/-- `MoshEngine`. -/
structure MoshEngine where
  (width height moshWidth moshHeight : ℕ)
  scaleOut : Bool
  currentBitrate : Option ℕ
  (seen needKey : Bool)
  (frameCount emitCount : ℕ)
  ring : MoshChunkRing
  lastDecoded : Option Picture
  recycled : Option Image
  motionVectorsEnabled : Bool
  (fails good : ℕ)

/-- The engine and the log of what it did, the newest event first. -/
structure Stage where
  engine : MoshEngine
  log : List Event

def Stage.record (stage : Stage) (event : Event) : Stage := { stage with log := event :: stage.log }

def Stage.epoch (stage : Stage) : List Event := sinceReset Event.isReset stage.log

/-- What the engine is right after `open_configured`. -/
def MoshEngine.opened (laws : DoubleLaws) (width height : ℕ)
    (exportMotionVectors : Bool) : MoshEngine where
  width := width
  height := height
  moshWidth := (laws.moshDimensions width height).1
  moshHeight := (laws.moshDimensions width height).2
  scaleOut := false
  currentBitrate := some (laws.targetBitrate CodecMoshParams.default.bitrateStarve)
  seen := false
  needKey := true
  frameCount := 0
  emitCount := 0
  ring := .empty
  lastDecoded := none
  recycled := none
  motionVectorsEnabled := exportMotionVectors
  fails := 0
  good := 0

/-- `MOSH_DECODER_FAIL_LIMIT`. -/
def decoderFailLimit : ℕ := 6

/-- `MOSH_DECODER_GOOD_STREAK`. -/
def decoderGoodStreak : ℕ := 30

/-- `saturating_add(1)` on 32 bits. -/
def saturatingSucc (n : ℕ) : ℕ := min (n + 1) (2 ^ 32 - 1)

/-- `mosh_fault_count_after_decode_error`. -/
def faultCountAfterDecodeError (fails good : ℕ) : ℕ :=
  if decoderGoodStreak < good then 1 else saturatingSucc fails

namespace Stage

def resetStream (stage : Stage) : Stage :=
  { stage with
    engine :=
      { stage.engine with
        seen := false
        needKey := true
        ring := .empty
        lastDecoded := none
        scaleOut := false
        recycled := none } }.record .reset

/-- `rebuild_decoder`: the reset comes first, and whether the decoder opens only
decides which decoder answers next. -/
def rebuildDecoder (stage : Stage) : Stage := stage.resetStream

def recordDecodeFault (stage : Stage) : Stage :=
  { stage with
    engine :=
      { stage.engine with
        fails := faultCountAfterDecodeError stage.engine.fails stage.engine.good
        good := 0 } }

/-- `recover_decoded_output`, and what `emit` does after a refused packet. -/
def recoverDecodedOutput (stage : Stage) : Stage :=
  let stage := stage.recordDecodeFault
  if stage.engine.fails ≤ decoderFailLimit then stage.rebuildDecoder
  else stage.resetStream

end Stage

inductive MoshEmitOutcome
  | accepted | acceptedPicture | reset
  deriving DecidableEq

/-- What `receive_frame` returns; an end of the list is `EAGAIN`. -/
inductive Received
  | picture (format : Pixel) (width height : ℕ)
  | fault

structure FeedAnswer where
  sent : Bool
  received : List Received

/-- `MOSH_MAX_DECODE_FRAMES_PER_CHUNK`. -/
def maxDecodeFramesPerChunk : ℕ := 8

namespace Stage

def receive (stage : Stage) (format : Pixel) (width height : ℕ) : Stage :=
  let picture := ⟨stage.log.length, format, width, height⟩
  { stage with
    engine :=
      { stage.engine with
        good := saturatingSucc stage.engine.good
        lastDecoded := some picture } }.record (.decoded picture)

/-- The loop over `receive_frame`; `decoded` tells whether a picture came. -/
def drainDecoder : ℕ → List Received → Bool → Stage → MoshEmitOutcome × Stage
  | budget + 1, .picture format width height :: rest, _, stage =>
    drainDecoder budget rest true (stage.receive format width height)
  | _ + 1, .fault :: _, _, stage => (.reset, stage.recoverDecodedOutput)
  | _, _, decoded, stage => (if decoded then .acceptedPicture else .accepted, stage)

def emit (chunk : Chunk) (role : FeedRole) (answer : FeedAnswer)
    (stage : Stage) : MoshEmitOutcome × Stage :=
  let stage :=
    { stage with
      engine := { stage.engine with emitCount := stage.engine.emitCount + 1 } }.record
      (.fed chunk role)
  if answer.sent then
    let result := drainDecoder maxDecodeFramesPerChunk answer.received false stage
    if result.1 = .reset then result
    else (result.1, result.2.record (.accepted chunk role))
  else (.reset, stage.recoverDecodedOutput)

end Stage

structure Packet where
  data : Option Bytes
  key : Bool

/-- What one call of `apply` is given. -/
structure Frame where
  (pixels width height : ℕ)
  params : CodecMoshParams
  ordinal : UInt64
  seed : UInt32

/-- `MOSH_MAX_PACKETS_PER_FRAME`. -/
def maxPacketsPerFrame : ℕ := 16

/-- `MOSH_MAX_EMITS_PER_FRAME`. -/
def maxEmitsPerFrame : ℕ := 16

/-- The loop over the packets: the feeds so far, and whether a reset has ended
it. -/
structure Feeding where
  stage : Stage
  emits : ℕ
  ended : Bool

namespace Feeding

/-- Feed a chunk unless the frame's feeds are spent. -/
def feed (answers : ℕ → FeedAnswer) (chunk : Chunk) (role : FeedRole)
    (feeding : Feeding) : Feeding :=
  if feeding.ended ∨ maxEmitsPerFrame ≤ feeding.emits then feeding
  else
    let result := feeding.stage.emit chunk role (answers feeding.emits)
    ⟨result.2, feeding.emits + 1, decide (result.1 = .reset)⟩

/-- `mosh_bootstrap_after_emit` for a key chunk that was fed. -/
def bootstrapAfterEmit (feeding : Feeding) : Feeding :=
  { feeding with
    stage :=
      { feeding.stage with
        engine :=
          { feeding.stage.engine with
            seen := !feeding.ended
            needKey := feeding.ended } } }

def keyChunk (frame : Frame) (answers : ℕ → FeedAnswer) (index : UInt32)
    (chunk : Chunk) (feeding : Feeding) : Feeding :=
  let engine := feeding.stage.engine
  match decideKeyChunk frame.params.sanitized frame.ordinal index frame.seed
      (!engine.seen || engine.needKey) with
  | .emit =>
    if feeding.emits < maxEmitsPerFrame then (feeding.feed answers chunk .key).bootstrapAfterEmit
    else feeding
  | .remove => feeding

def holdChunk (answers : ℕ → FeedAnswer) (chunk : Chunk) : ℕ → Feeding → Feeding
  | 0, feeding => feeding
  | repeats + 1, feeding => holdChunk answers chunk repeats (feeding.feed answers chunk .hold)

def shuffleChunk (answers : ℕ → FeedAnswer) (pick : Option F32) (feeding : Feeding) : Feeding :=
  match pick.bind feeding.stage.engine.ring.pick with
  | none => feeding
  | some stale => feeding.feed answers stale (.shuffled feeding.stage.engine.ring.entries)

/-- A delta enters the ring before its own dice. -/
def pushRing (chunk : Chunk) (feeding : Feeding) : Feeding :=
  { feeding with
    stage :=
      { feeding.stage with
        engine := { feeding.stage.engine with ring := feeding.stage.engine.ring.push chunk } } }

def deltaChunk (frame : Frame) (answers : ℕ → FeedAnswer) (index : UInt32)
    (chunk : Chunk) (feeding : Feeding) : Feeding :=
  let feeding := feeding.pushRing chunk
  if !feeding.stage.engine.seen then feeding
  else
    let decision := decideDeltaChunk frame.params.sanitized frame.ordinal index
      frame.seed
    if decision.dropped then feeding
    else
      let feeding := feeding.feed answers chunk .delta
      let feeding := holdChunk answers chunk decision.extraRepeats feeding
      shuffleChunk answers decision.shufflePick feeding

/-- One packet; a packet without data is passed over. -/
def packet (frame : Frame) (answers : ℕ → FeedAnswer) (index : UInt32)
    (packet : Packet) (feeding : Feeding) : Feeding :=
  match packet.data with
  | none => feeding
  | some bytes =>
    let chunk := ⟨feeding.stage.log.length, bytes⟩
    let drained := { feeding with stage := feeding.stage.record (.drained chunk packet.key) }
    if packet.key then keyChunk frame answers index chunk drained
    else deltaChunk frame answers index chunk drained

def packets (frame : Frame) (answers : ℕ → FeedAnswer) : ℕ → List Packet → Feeding → Feeding
  | _, [], feeding => feeding
  | index, next :: rest, feeding =>
    if feeding.ended then feeding
    else
      packets frame answers (index + 1) rest
        (packet frame answers (UInt32.ofNat index) next feeding)

end Feeding

/-- What the codec library answers during one call of `apply`.  The feeds are
numbered within the frame. -/
structure HostAnswers where
  engineOpened : Except String Unit
  encoderOpened : Except String Unit
  (decoderOpened scaledIn motionPrepared frameSent : Except String Unit)
  packets : List Packet
  feeds : ℕ → FeedAnswer
  (scaleOutOpened scaleOutRan : Bool)

/-- `mosh_bitrate_reconfigure_needed`. -/
def bitrateReconfigureNeeded (current : Option ℕ) (want : ℕ) : Bool :=
  match current with
  | none => true
  | some current => want / 4 < ((want : ℤ) - current).natAbs

/-- `mosh_resync_period`. -/
def resyncPeriod (laws : DoubleLaws) (resync : F32) : Option ℕ :=
  if (finiteUnitOr resync 0).le amountDeadband then none
  else some (max (laws.resyncFrames (finiteUnitOr resync 0)) 2)

/-- `mosh_wants_keyframe`. -/
def wantsKeyframe (laws : DoubleLaws) (seen needKey : Bool) (resync : F32)
    (frameCount : ℕ) : Bool :=
  if !seen || needKey then true
  else
    match resyncPeriod laws resync with
    | none => false
    | some period => frameCount % period = 0

/-- `mosh_decoded_frame_in_fixed_domain`; no edge is longer than
`MOSH_MAX_WIDTH`. -/
def decodedFrameInFixedDomain (picture : Picture) (width height : ℕ) : Bool :=
  decide (picture.format = .yuv420p) && decide (picture.width = width) &&
    decide (picture.height = height) && decide (picture.width ≠ 0) &&
    decide (picture.height ≠ 0) && decide (picture.width ≤ 640) &&
    decide (picture.height ≤ 640)

/-- The bytes of a frame, when they fit a word and the pixels cover them. -/
def expectedBytes (frame : Frame) : Except String ℕ :=
  match (checkedMulU64 frame.width frame.height).bind (checkedMulU64 · 4) with
  | none => .error "mosh frame size overflowed"
  | some expected =>
    if frame.width = 0 ∨ frame.height = 0 ∨ frame.pixels < expected then
      .error ("mosh frame " ++ toString frame.width ++ "x" ++
        toString frame.height ++ " does not match " ++
        toString frame.pixels ++ " bytes")
    else .ok expected

def decoderUnavailable : String := "mosh decoder unavailable after repeated faults"

namespace Stage

/-- The recycled image leaves the engine, used or not. -/
def takeRecycled (stage : Stage) : Stage :=
  { stage with engine := { stage.engine with recycled := none } }

/-- `*self = Self::open_configured(..)?`, when the size has changed; what comes
back beside the stage is the recycled image that is left. -/
def resize (laws : DoubleLaws) (frame : Frame) (host : HostAnswers)
    (shaping : Bool) (recycled : Option Image) (stage : Stage) :
    Except String (Option Image) × Stage :=
  if frame.width ≠ stage.engine.width ∨ frame.height ≠ stage.engine.height then
    match host.engineOpened with
    | .error text => (.error text, stage)
    | .ok () =>
      (.ok none,
        { stage with
          engine := .opened laws frame.width frame.height shaping }.record
          .reset)
  else (.ok recycled, stage)

/-- The flags of a stream that has just been replaced. -/
def healthy (stage : Stage) : Stage :=
  { stage with
    engine :=
      { stage.engine with
        fails := 0
        good := 0 } }

/-- `reconfigure_bitrate_stream`, or the decoder alone when motion vectors are
switched on. -/
def reconfigure (laws : DoubleLaws) (params : CodecMoshParams) (host : HostAnswers) (shaping : Bool)
    (recycled : Option Image) (stage : Stage) : Except String (Option Image) × Stage :=
  let want := laws.targetBitrate params.bitrateStarve
  if bitrateReconfigureNeeded stage.engine.currentBitrate want then
    match host.encoderOpened, host.decoderOpened with
    | .error text, _ => (.error text, stage)
    | .ok (), .error text => (.error text, stage)
    | .ok (), .ok () =>
      (.ok none,
        ({ stage with
          engine :=
            { stage.engine with
              motionVectorsEnabled := shaping
              currentBitrate := some want } } : Stage).resetStream.healthy)
  else if shaping && !stage.engine.motionVectorsEnabled then
    match host.decoderOpened with
    | .error text => (.error text, stage)
    | .ok () =>
      (.ok none,
        ({ stage with
          engine :=
            { stage.engine with motionVectorsEnabled := true } } : Stage).resetStream.healthy)
  else (.ok recycled, stage)

/-- The picture is scaled, and sent to the encoder as a key or not. -/
def encode (laws : DoubleLaws) (params : CodecMoshParams) (host : HostAnswers)
    (recycled : Option Image) (stage : Stage) : Except String Unit × Stage :=
  match host.scaledIn, host.motionPrepared with
  | .error text, _ => (.error ("mosh downscale: " ++ text), stage)
  | .ok (), .error text => (.error text, stage)
  | .ok (), .ok () =>
    let forced := wantsKeyframe laws stage.engine.seen stage.engine.needKey
      params.resync stage.engine.frameCount
    let sent :=
      { stage with
        engine := { stage.engine with frameCount := stage.engine.frameCount + 1 } }.record
        (.encoded forced recycled)
    match host.frameSent with
    | .error text => (.error ("mosh encode: " ++ text), sent)
    | .ok () => (.ok (), sent)

/-- The output is blended, and kept under the recycle law. -/
def finish (params : CodecMoshParams) (picture : Picture) (expected : ℕ)
    (recycled : Option Image) (stage : Stage) : Stage :=
  let blended := stage.record (.blended picture recycled)
  if params.recycle then
    let image := ⟨blended.log.length, expected⟩
    { blended with engine := { blended.engine with recycled := some image } }.record (.stored image)
  else blended.takeRecycled

/-- The newest decoded picture over the dry image, if there is one that the
output path can show. -/
def blend (params : CodecMoshParams) (host : HostAnswers) (expected : ℕ)
    (recycled : Option Image) (stage : Stage) : Stage :=
  match stage.engine.lastDecoded with
  | none => stage
  | some picture =>
    if !decodedFrameInFixedDomain picture stage.engine.moshWidth
        stage.engine.moshHeight then
      stage.recoverDecodedOutput
    else if !stage.engine.scaleOut && !host.scaleOutOpened then stage.recoverDecodedOutput
    else
      let stage := { stage with engine := { stage.engine with scaleOut := true } }
      if !host.scaleOutRan then stage.recoverDecodedOutput
      else stage.finish params picture expected recycled

def roundTrip (frame : Frame) (host : HostAnswers) (expected : ℕ)
    (recycled : Option Image) (stage : Stage) : Except String Unit × Stage :=
  let fed := (Feeding.packets frame host.feeds 0
    (host.packets.take maxPacketsPerFrame) ⟨stage, 0, false⟩).stage
  if decoderFailLimit < fed.engine.fails then (.error decoderUnavailable, fed)
  else (.ok (), fed.blend frame.params.sanitized host expected recycled)

/-- `apply` after its own checks. -/
def process (laws : DoubleLaws) (frame : Frame) (host : HostAnswers)
    (expected : ℕ) (recycled : Option Image) (stage : Stage) :
    Except String Unit × Stage :=
  let params := frame.params.sanitized
  let shaping := params.motionShapingActive
  match stage.resize laws frame host shaping recycled with
  | (.error text, stage) => (.error text, stage)
  | (.ok recycled, stage) =>
    match stage.reconfigure laws params host shaping recycled with
    | (.error text, stage) => (.error text, stage)
    | (.ok recycled, stage) =>
      match stage.encode laws params host recycled with
      | (.error text, stage) => (.error text, stage)
      | (.ok (), stage) => stage.roundTrip frame host expected recycled

/-- `apply`: what it returns, and the stage afterwards. -/
def apply (laws : DoubleLaws) (frame : Frame) (host : HostAnswers)
    (stage : Stage) : Except String Unit × Stage :=
  let params := frame.params.sanitized
  let prior := if params.recycle then stage.engine.recycled else none
  let stage := stage.takeRecycled
  match expectedBytes frame with
  | .error text => (.error text, stage)
  | .ok expected =>
    if !params.active then (.ok (), stage)
    else if decoderFailLimit < stage.engine.fails then (.error decoderUnavailable, stage)
    else stage.process laws frame host expected (prior.filter fun image => expected ≤ image.length)

def afterCalls (laws : DoubleLaws) (width height : ℕ)
    (exportMotionVectors : Bool) (calls : List (Frame × HostAnswers)) : Stage :=
  calls.foldl (fun stage call => (stage.apply laws call.1 call.2).2)
    ⟨.opened laws width height exportMotionVectors, [.reset]⟩

end Stage

end CollideOScope.Mosh
