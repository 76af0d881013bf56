import CollideOScope.Support.Checks
import CollideOScope.Support.Words

/-!
# Gesture tracks

A gesture track is a bounded stream of events addressed by ticks relative to
the first one.  One validator governs live ingest and the decoding of a
document: it keeps the set of open strokes as a mask of sixteen bits and the
last tick, and refuses rather than repairs.
-/

namespace CollideOScope.Gesture

open Checks

inductive GesturePhase
  | begin | move
  | «end»
  deriving DecidableEq

def GesturePhase.code : GesturePhase → UInt8
  | .begin => 0
  | .move => 1
  | .end => 2

inductive GestureMode
  | push | curl

def GestureMode.code : GestureMode → UInt8
  | .push => 0
  | .curl => 1

structure GestureEvent where
  referenceTick : UInt32
  stroke : UInt8
  phase : GesturePhase
  mode : GestureMode
  (x y pressure : UInt16)
  (directionX directionY : Int16)

namespace GestureEvent

/-- `GestureEvent::at`: the event at a relative address. -/
def at' (event : GestureEvent) (referenceTick : UInt32) : GestureEvent :=
  { event with referenceTick := referenceTick }

/-- `GestureEvent::encode_into`. -/
def encode (event : GestureEvent) : Bytes :=
  leBytes 4 event.referenceTick.toNat ++
    ([event.stroke, event.phase.code, event.mode.code, 0] ++
      (leBytes 2 event.x.toNat ++ (leBytes 2 event.y.toNat ++
        (leBytes 2 event.pressure.toNat ++
          (leBytes 2 event.directionX.toUInt16.toNat ++
            leBytes 2 event.directionY.toUInt16.toNat)))))

end GestureEvent

inductive GestureError
  | strokeOutOfRange (stroke : UInt8)
  | tooManyOpenStrokes (stroke : UInt8)
  | strokeAlreadyOpen (stroke : UInt8)
  | strokeNotOpen (stroke : UInt8) (phase : GesturePhase)
  | nonMonotonicTick (previous observed : UInt32)
  | tickBeforeOrigin (absolute origin : UInt64)
  | tickOutOfRange (relative : UInt64)
  | tooManyEvents (count : ℕ)
  | eventCount (declared : UInt32) (observed : ℕ)
  | originWithoutEvents (origin : UInt64)
  | unsupportedVersion (version : UInt16)
  | checksumMismatch (declared computed : String)

def gestureAlgorithmVersion : UInt16 := 1

def maxGestureEvents : ℕ := 4096

def maxActiveStrokes : ℕ := 16

structure GestureStreamValidator where
  openStrokes : BitVec 16
  lastTick : Option UInt32

namespace GestureStreamValidator

def default : GestureStreamValidator := ⟨0, none⟩

/-- `open_stroke_count`: the number of set bits. -/
def openStrokeCount (v : GestureStreamValidator) : ℕ := (List.range 16).countP v.openStrokes.getLsbD

def isComplete (v : GestureStreamValidator) : Bool := v.openStrokes = 0

/-- The watermark check of `accept`. -/
def checkTick (v : GestureStreamValidator) (event : GestureEvent) : Except GestureError Unit :=
  match v.lastTick with
  | none => pure ()
  | some previous =>
    refuse (event.referenceTick < previous) (.nonMonotonicTick previous event.referenceTick)

def nextOpenStrokes (v : GestureStreamValidator) (event : GestureEvent) :
    Except GestureError (BitVec 16) :=
  let bit := 1#16 <<< event.stroke.toNat
  match event.phase with
  | .begin => do
    refuse (v.openStrokes &&& bit ≠ 0) (.strokeAlreadyOpen event.stroke)
    refuse (maxActiveStrokes ≤ v.openStrokeCount) (.tooManyOpenStrokes event.stroke)
    pure (v.openStrokes ||| bit)
  | .move => do
    refuse (v.openStrokes &&& bit = 0) (.strokeNotOpen event.stroke .move)
    pure v.openStrokes
  | .end => do
    refuse (v.openStrokes &&& bit = 0) (.strokeNotOpen event.stroke .end)
    pure (v.openStrokes &&& ~~~bit)

def accept (v : GestureStreamValidator) (event : GestureEvent) :
    Except GestureError GestureStreamValidator := do
  refuse (maxActiveStrokes ≤ event.stroke.toNat) (.strokeOutOfRange event.stroke)
  v.checkTick event
  let openStrokes ← v.nextOpenStrokes event
  pure ⟨openStrokes, some event.referenceTick⟩

variable {s : ℕ}

theorem getLsbD_bit {i : ℕ} (hs : s < 16) : (1#16 <<< s).getLsbD i = decide (i = s) := by
  rw [BitVec.getLsbD_shiftLeft, BitVec.getLsbD_one]
  by_cases hlt : i < s
  · simp [hlt, hlt.ne]
  · by_cases heq : i = s
    · simp [heq, hs]
    · have hne : i - s ≠ 0 := by omega
      simp [heq, hne]

theorem and_bit_eq_zero {m : BitVec 16} (hs : s < 16) :
    m &&& 1#16 <<< s = 0 ↔ m.getLsbD s = false := by
  constructor
  · intro h
    have hbit := congrArg (fun b => BitVec.getLsbD b s) h
    simpa [BitVec.getLsbD_and, getLsbD_bit hs] using hbit
  · intro h
    apply BitVec.eq_of_getLsbD_eq
    intro i _
    rw [BitVec.getLsbD_and, getLsbD_bit hs]
    by_cases heq : i = s
    · simp [heq, h]
    · simp [heq]

variable {v : GestureStreamValidator} {event : GestureEvent}

theorem checkTick_ok :
    v.checkTick event = .ok () ↔ ∀ previous ∈ v.lastTick, previous ≤ event.referenceTick := by
  cases h : v.lastTick with
  | none | some previous => simp [checkTick, h]

theorem nextOpenStrokes_ok {openStrokes : BitVec 16} (hs : event.stroke.toNat < 16)
    (h : v.nextOpenStrokes event = .ok openStrokes) :
    (v.openStrokes.getLsbD event.stroke.toNat ↔ event.phase ≠ .begin) ∧
      ∀ i < 16, openStrokes.getLsbD i =
        if i = event.stroke.toNat then decide (event.phase ≠ .end)
        else v.openStrokes.getLsbD i := by
  have hbit := @getLsbD_bit event.stroke.toNat
  cases hph : event.phase with
  | begin =>
    simp only [nextOpenStrokes, hph, bind_ok, refuse_ok, exists_unit,
      pure_ok, not_not, and_bit_eq_zero hs] at h
    obtain ⟨hclosed, -, rfl⟩ := h
    refine ⟨by simp [hclosed], fun i _ => ?_⟩
    rw [BitVec.getLsbD_or, hbit hs]
    by_cases heq : i = event.stroke.toNat
    · simp [heq]
    · simp [heq]
  | move =>
    simp only [nextOpenStrokes, hph, bind_ok, refuse_ok, exists_unit,
      pure_ok, and_bit_eq_zero hs, Bool.not_eq_false] at h
    obtain ⟨hopen, rfl⟩ := h
    refine ⟨by simp [hopen], fun i _ => ?_⟩
    by_cases heq : i = event.stroke.toNat
    · simp [heq, hopen]
    · simp [heq]
  | «end» =>
    simp only [nextOpenStrokes, hph, bind_ok, refuse_ok, exists_unit,
      pure_ok, and_bit_eq_zero hs, Bool.not_eq_false] at h
    obtain ⟨hopen, rfl⟩ := h
    refine ⟨by simp [hopen], fun i hi => ?_⟩
    rw [BitVec.getLsbD_and, BitVec.getLsbD_not, hbit hs]
    by_cases heq : i = event.stroke.toNat
    · simp [heq]
    · simp [heq, hi]

theorem accept_ok {v' : GestureStreamValidator} (h : v.accept event = .ok v') :
    event.stroke.toNat < 16 ∧
      (∀ previous ∈ v.lastTick, previous ≤ event.referenceTick) ∧
      v'.lastTick = some event.referenceTick ∧
      (v.openStrokes.getLsbD event.stroke.toNat ↔ event.phase ≠ .begin) ∧
      ∀ i < 16, v'.openStrokes.getLsbD i =
        if i = event.stroke.toNat then decide (event.phase ≠ .end)
        else v.openStrokes.getLsbD i := by
  simp only [accept, bind_ok, refuse_ok, exists_unit, checkTick_ok, pure_ok, not_le] at h
  obtain ⟨hs, htick, openStrokes, hnext, rfl⟩ := h
  obtain ⟨hpre, hafter⟩ := nextOpenStrokes_ok hs hnext
  exact ⟨hs, htick, rfl, hpre, hafter⟩

end GestureStreamValidator

structure GestureTrack where
  originTick : Option UInt64
  events : List GestureEvent
  truncated : Bool
  validator : GestureStreamValidator

namespace GestureTrack

def default : GestureTrack := ⟨none, [], false, .default⟩

/-- The part of `record_accepted` that can refuse: the origin, the event at its
relative tick, and the validator of the extended stream. -/
def stamp (track : GestureTrack) (absolute : UInt64) (event : GestureEvent) :
    Except GestureError (UInt64 × GestureEvent × GestureStreamValidator) := do
  let origin := track.originTick.getD absolute
  refuse (absolute < origin) (.tickBeforeOrigin absolute origin)
  let relative := absolute - origin
  refuse (2 ^ 32 ≤ relative.toNat) (.tickOutOfRange relative)
  let stamped := event.at' relative.toUInt32
  let probe ← track.validator.accept stamped
  pure (origin, stamped, probe)

/-- `GestureTrack::record_accepted`: its result and the track behind it. -/
def recordAccepted (track : GestureTrack) (absolute : UInt64)
    (event : GestureEvent) : Except GestureError Bool × GestureTrack :=
  match track.stamp absolute event with
  | .error error => (.error error, track)
  | .ok (origin, stamped, probe) =>
    if maxGestureEvents ≤ track.events.length then (.ok false, { track with truncated := true })
    else
      (.ok true,
        { track with
          originTick := some origin
          events := track.events ++ [stamped]
          validator := probe })

def record (track : GestureTrack) (calls : List (UInt64 × GestureEvent)) : GestureTrack :=
  calls.foldl (fun track call => (track.recordAccepted call.1 call.2).2) track

def isComplete (track : GestureTrack) : Bool := track.validator.isComplete

def flags (track : GestureTrack) : UInt16 :=
  (if track.truncated then 1 else 0) ||| (if track.isComplete then 0 else 2)

/-- `declared_event_count`: `u32::try_from(len).unwrap_or(u32::MAX)`. -/
def declaredEventCount (track : GestureTrack) : UInt32 :=
  if track.events.length < 2 ^ 32 then UInt32.ofNat track.events.length
  else 0xffffffff

/-- `GESTURE_CHECKSUM_DOMAIN`. -/
def checksumDomain : Bytes := "collide-o-scope/gesture-track/v1\x00".toUTF8.toList

def canonicalBytes (track : GestureTrack) : Bytes :=
  checksumDomain ++ (leBytes 2 gestureAlgorithmVersion.toNat ++
    (leBytes 2 track.flags.toNat ++
      (leBytes 8 (track.originTick.getD 0).toNat ++
        (leBytes 4 track.declaredEventCount.toNat ++ track.events.flatMap GestureEvent.encode))))

end GestureTrack

structure GestureTrackDocument where
  version : UInt16
  originTick : UInt64
  eventCount : UInt32
  truncated : Bool
  checksum : String
  events : List GestureEvent

namespace GestureTrackDocument

variable (digestHex : Bytes → String)

/-- `GestureTrackDocument::capture`; `digestHex` is the digest in hexadecimal
digits. -/
def capture (track : GestureTrack) : GestureTrackDocument where
  version := gestureAlgorithmVersion
  originTick := track.originTick.getD 0
  eventCount := track.declaredEventCount
  truncated := track.truncated
  checksum := digestHex track.canonicalBytes
  events := track.events

def rebuild (document : GestureTrackDocument)
    (validator : GestureStreamValidator) : GestureTrack where
  originTick := if document.events = [] then none else some document.originTick
  events := document.events
  truncated := document.truncated
  validator := validator

def decode (document : GestureTrackDocument) :
    Except GestureError GestureTrack := do
  refuse (document.version ≠ gestureAlgorithmVersion) (.unsupportedVersion document.version)
  refuse (maxGestureEvents < document.events.length) (.tooManyEvents document.events.length)
  refuse (document.eventCount.toNat ≠ document.events.length)
    (.eventCount document.eventCount document.events.length)
  refuse (document.events = [] ∧ document.originTick ≠ 0) (.originWithoutEvents document.originTick)
  let validator ← document.events.foldlM GestureStreamValidator.accept .default
  let track := document.rebuild validator
  let computed := digestHex track.canonicalBytes
  refuse (computed ≠ document.checksum) (.checksumMismatch document.checksum computed)
  pure track

end GestureTrackDocument

end CollideOScope.Gesture
