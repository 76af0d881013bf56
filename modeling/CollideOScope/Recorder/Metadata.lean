import Mathlib.Tactic.Common

/-!
# Frame metadata of a recording

Every captured frame carries its capture index, its times and the position of
the audio clock.  The worker accepts a frame when its metadata follow those of
the last accepted frame.
-/

namespace CollideOScope.Recorder

structure AudioClockStamp where
  (samplePosition sampleRate channels : ℕ)
  deriving DecidableEq

def AudioClockStamp.validate (stamp : AudioClockStamp) : Bool :=
  (8000 ≤ stamp.sampleRate && stamp.sampleRate ≤ 384000) &&
    (1 ≤ stamp.channels && stamp.channels ≤ 32)

structure RecorderFrameMetadata where
  (captureIndex captureTimeNs programTimeNs visualEpoch : ℕ)
  (programFrozen mediaFrozen blackout : Bool)
  audioClock : Option AudioClockStamp
  deriving DecidableEq

def RecorderFrameMetadata.validate (metadata : RecorderFrameMetadata) : Except String Unit :=
  if metadata.audioClock.any fun clock => !clock.validate then
    .error "recording audio clock has unsupported rate or channel count"
  else .ok ()

/-- What `metadata_follows` asks of two audio clocks. -/
def clockFollows : Option AudioClockStamp → Option AudioClockStamp → Bool
  | some a, some b =>
    a.sampleRate == b.sampleRate && a.channels == b.channels && a.samplePosition ≤ b.samplePosition
  | _, _ => true

def metadataFollows (previous : Option RecorderFrameMetadata)
    (next : RecorderFrameMetadata) : Bool :=
  match next.validate with
  | .error _ => false
  | .ok () =>
    match previous with
    | none => true
    | some previous =>
      previous.captureIndex < next.captureIndex && previous.captureTimeNs ≤ next.captureTimeNs &&
        previous.programTimeNs ≤ next.programTimeNs &&
        clockFollows previous.audioClock next.audioClock

theorem captureIndex_lt_of_follows {previous next : RecorderFrameMetadata}
    (h : metadataFollows (some previous) next) :
    previous.captureIndex < next.captureIndex := by
  unfold metadataFollows at h
  split at h
  · cases h
  · simp only [Bool.and_eq_true, decide_eq_true_eq] at h
    exact h.1.1.1

end CollideOScope.Recorder
