import CollideOScope.Recorder.Metadata
import CollideOScope.Support.Binary32
import CollideOScope.Support.Checks
import CollideOScope.Support.Frames
import CollideOScope.Support.Machine
import CollideOScope.Support.Words
import Mathlib.Data.List.Range

/-!
# The program audio tap

The audio callback pushes device samples into a bounded ring of whole frames,
and the recorder worker is its single reader.  A full ring discards its oldest
frame.  Three cursors move: the oldest retained frame, the count of delivered
frames, and the frame at which the reader stands.

The ring is a window on the history of delivered frames.
-/

namespace CollideOScope.Recorder

open List Nat

/-- The fixed part of a `ProgramAudioTap`, with what `new` establishes. -/
structure ProgramAudioTap where
  (sampleRate channels capacitySamples : ℕ)
  channels_pos : 0 < channels
  channels_le : channels ≤ 32
  capacity : channels ≤ capacitySamples

/-- The ring and the flag that the device is lost. -/
structure AudioTapRing where
  samples : List F32
  (headFrame deliveredFrames : ℕ)
  readerFrame : Option ℕ
  deviceLost : Bool

/-- `4.0` and its negative. -/
def sampleLimit : F32 := ⟨0x40800000⟩

def negativeSampleLimit : F32 := ⟨0xc0800000⟩

/-- What the callback stores for a device sample. -/
def storedSample (sample : F32) : F32 :=
  if sample.isFinite then sample.clamp negativeSampleLimit sampleLimit
  else F32.zero

namespace AudioTapRing

def new : AudioTapRing where
  samples := []
  headFrame := 0
  deliveredFrames := 0
  readerFrame := none
  deviceLost := false

variable (tap : ProgramAudioTap)

/-- One pass of a loop that pops the oldest frame. -/
def popFrame (ring : AudioTapRing) : AudioTapRing :=
  { ring with
    samples := ring.samples.drop tap.channels
    headFrame := ring.headFrame + 1 }

/-- The loop that makes room for a frame, `fuel` passes at most. -/
def makeRoom : ℕ → AudioTapRing → AudioTapRing
  | 0, ring => ring
  | fuel + 1, ring =>
    if tap.capacitySamples < ring.samples.length + tap.channels then
      makeRoom fuel (ring.popFrame tap)
    else ring

def pushFrame (ring : AudioTapRing) (frame : List F32) : AudioTapRing :=
  let ring := ring.makeRoom tap ring.samples.length
  { ring with
    samples := ring.samples ++ frame
    deliveredFrames := ring.deliveredFrames + 1 }

/-- The frames that the callback reads from an iterator. -/
def framesOf (samples : List F32) : List (List F32) :=
  (wholeFrames tap.channels samples.length samples).map
    fun frame => frame.map storedSample

def pushInterleaved (ring : AudioTapRing) (samples : List F32) (channelCount : ℕ) : AudioTapRing :=
  if channelCount ≠ tap.channels then { ring with deviceLost := true }
  else (framesOf tap samples).foldl (pushFrame tap) ring

/-- The loop of `begin_read_at`, `fuel` passes at most. -/
def skipTo (anchorFrame : ℕ) : ℕ → AudioTapRing → AudioTapRing
  | 0, ring => ring
  | fuel + 1, ring =>
    if ring.headFrame < anchorFrame ∧ tap.channels ≤ ring.samples.length then
      skipTo anchorFrame fuel (ring.popFrame tap)
    else ring

def beginReadAt (ring : AudioTapRing) (anchorFrame : ℕ) : AudioTapRing :=
  let ring := ring.skipTo tap anchorFrame ring.samples.length
  let headFrame :=
    if ring.headFrame < anchorFrame ∧ ring.samples = [] then max ring.headFrame ring.deliveredFrames
    else ring.headFrame
  { ring with headFrame := headFrame, readerFrame := some anchorFrame }

/-- `take_available`: the gap, the samples and the ring. -/
def takeAvailable (ring : AudioTapRing) : ℕ × List F32 × AudioTapRing :=
  match ring.readerFrame with
  | none => (0, [], ring)
  | some reader =>
    let headFrame := ring.headFrame + ring.samples.length / tap.channels
    (ring.headFrame - reader, ring.samples,
      { ring with
        samples := []
        headFrame := headFrame
        readerFrame := some headFrame })

/-- The ring holds the delivered frames from its head on. -/
structure Window (delivered : List (List F32)) (ring : AudioTapRing) : Prop where
  framed : Framed tap.channels delivered
  count : ring.deliveredFrames = delivered.length
  head : ring.headFrame ≤ delivered.length
  samples : ring.samples = (delivered.drop ring.headFrame).flatten
  bounded : ring.samples.length ≤ tap.capacitySamples

variable {tap} {delivered : List (List F32)} {ring : AudioTapRing}

theorem window_new : Window tap [] new where
  framed := .nil
  count := rfl
  head := Nat.le_refl _
  samples := rfl
  bounded := zero_le _

namespace Window

section

variable (h : Window tap delivered ring)
include h

theorem length_samples :
    ring.samples.length = (ring.deliveredFrames - ring.headFrame) * tap.channels := by
  rw [h.samples, (h.framed.drop _).length_flatten, length_drop, h.count]

theorem retained : ring.headFrame + ring.samples.length / tap.channels = ring.deliveredFrames := by
  have hhead := h.head
  rw [h.length_samples, Nat.mul_div_cancel _ tap.channels_pos, h.count]
  omega

theorem dvd_length : tap.channels ∣ ring.samples.length := by
  rw [h.length_samples]
  exact dvd_mul_left _ _

theorem popFrame (hlt : ring.headFrame < delivered.length) :
    Window tap delivered (ring.popFrame tap) where
  framed := h.framed
  count := h.count
  head := hlt
  samples := by
    have hdrop := (h.framed.drop ring.headFrame).drop_flatten 1
    rw [one_mul, drop_drop] at hdrop
    simp only [AudioTapRing.popFrame]
    rw [h.samples, hdrop]
  bounded := by
    simp only [AudioTapRing.popFrame, length_drop]
    exact (sub_le _ _).trans h.bounded

theorem lt_of_length (hlen : 0 < ring.samples.length) : ring.headFrame < delivered.length := by
  by_contra hnot
  rw [h.length_samples, h.count, Nat.sub_eq_zero_of_le (Nat.le_of_not_lt hnot), zero_mul] at hlen
  exact lt_irrefl 0 hlen

end

variable {fuel : ℕ}

theorem makeRoom (h : Window tap delivered ring) (hfuel : ring.samples.length ≤ fuel) :
    Window tap delivered (ring.makeRoom tap fuel) ∧
      (ring.makeRoom tap fuel).samples.length + tap.channels ≤ tap.capacitySamples ∧
      ring.headFrame ≤ (ring.makeRoom tap fuel).headFrame ∧
      (ring.makeRoom tap fuel).readerFrame = ring.readerFrame ∧
      (ring.makeRoom tap fuel).deliveredFrames = ring.deliveredFrames := by
  have hcap := tap.capacity
  induction fuel generalizing ring with
  | zero =>
    refine ⟨h, ?_, le_refl _, rfl, rfl⟩
    rw [AudioTapRing.makeRoom]
    omega
  | succ fuel ih =>
    rw [AudioTapRing.makeRoom]
    split_ifs with hfull
    · have hpopped := h.popFrame (h.lt_of_length (by omega))
      have hpos := tap.channels_pos
      have hless : (ring.popFrame tap).samples.length ≤ fuel := by
        rw [AudioTapRing.popFrame, length_drop]
        omega
      obtain ⟨hwin, hroom, hhead, hreader, hcnt⟩ := ih hpopped hless
      refine ⟨hwin, hroom, le_trans ?_ hhead, hreader, hcnt⟩
      exact le_succ _
    · exact ⟨h, Nat.le_of_not_lt hfull, Nat.le_refl _, rfl, rfl⟩

theorem pushFrame (h : Window tap delivered ring) {frame : List F32}
    (hframe : frame.length = tap.channels) :
    Window tap (delivered ++ [frame]) (ring.pushFrame tap frame) ∧
      ring.headFrame ≤ (ring.pushFrame tap frame).headFrame ∧
      (ring.pushFrame tap frame).readerFrame = ring.readerFrame := by
  obtain ⟨hwin, hroom, hhead, hreader, hcnt⟩ := h.makeRoom (le_refl _)
  refine ⟨⟨?_, ?_, ?_, ?_, ?_⟩, hhead, hreader⟩
  · apply h.framed.append
    intro other hother
    rw [mem_singleton.mp hother, hframe]
  · rw [length_append, length_singleton, ← h.count, ← hcnt]
    rfl
  · rw [length_append]
    exact le_trans hwin.head (le_add_right _ _)
  · simp only [AudioTapRing.pushFrame]
    rw [drop_append_of_le_length hwin.head, flatten_append, flatten_singleton, ← hwin.samples]
  · simp only [AudioTapRing.pushFrame, length_append, hframe]
    exact hroom

theorem framesOf (tap : ProgramAudioTap) (samples : List F32) :
    Framed tap.channels (framesOf tap samples) := by
  intro frame hframe
  obtain ⟨raw, hraw, rfl⟩ := mem_map.mp hframe
  rw [length_map]
  exact framed_wholeFrames _ _ _ raw hraw

theorem pushFrames (h : Window tap delivered ring) {frames : List (List F32)}
    (hframes : Framed tap.channels frames) :
    Window tap (delivered ++ frames) (frames.foldl (AudioTapRing.pushFrame tap) ring) ∧
      ring.headFrame ≤ (frames.foldl (AudioTapRing.pushFrame tap) ring).headFrame ∧
      (frames.foldl (AudioTapRing.pushFrame tap) ring).readerFrame = ring.readerFrame := by
  induction frames generalizing ring delivered with
  | nil =>
    rw [append_nil]
    exact ⟨h, le_refl _, rfl⟩
  | cons frame frames ih =>
    obtain ⟨hwin, hhead, hreader⟩ := h.pushFrame (hframes frame mem_cons_self)
    obtain ⟨hwindow', hhead', hreader'⟩ := ih hwin
      fun other hother => hframes other (mem_cons_of_mem _ hother)
    rw [append_assoc, singleton_append] at hwindow'
    exact ⟨hwindow', hhead.trans hhead', hreader'.trans hreader⟩

variable {anchorFrame : ℕ}

theorem skipTo (h : Window tap delivered ring) (hanchor : anchorFrame ≤ delivered.length)
    (hfuel : ring.samples.length ≤ fuel) :
    Window tap delivered (ring.skipTo tap anchorFrame fuel) ∧
      (ring.skipTo tap anchorFrame fuel).headFrame = max ring.headFrame anchorFrame := by
  have hpos := tap.channels_pos
  have hlen := h.length_samples
  rw [h.count] at hlen
  induction fuel generalizing ring with
  | zero =>
    rw [AudioTapRing.skipTo]
    refine ⟨h, ?_⟩
    have hemp : delivered.length - ring.headFrame = 0 := by
      rw [le_zero.mp hfuel] at hlen
      obtain hzero | hzero := Nat.mul_eq_zero.mp hlen.symm
      · exact hzero
      · omega
    omega
  | succ fuel ih =>
    rw [AudioTapRing.skipTo]
    split_ifs with hskip
    · have hpopped := h.popFrame (h.lt_of_length (by omega))
      have hless : (ring.popFrame tap).samples.length ≤ fuel := by
        rw [AudioTapRing.popFrame, length_drop]
        omega
      have hrest := hpopped.length_samples
      rw [hpopped.count] at hrest
      obtain ⟨hwin, hhead⟩ := ih hpopped hless hrest
      refine ⟨hwin, ?_⟩
      rw [hhead]
      simp only [AudioTapRing.popFrame]
      omega
    · refine ⟨h, ?_⟩
      by_contra hne
      refine hskip ⟨by omega, ?_⟩
      rw [hlen]
      apply Nat.le_mul_of_pos_left
      omega

theorem beginReadAt (h : Window tap delivered ring) (hanchor : anchorFrame ≤ delivered.length) :
    Window tap delivered (ring.beginReadAt tap anchorFrame) ∧
      (ring.beginReadAt tap anchorFrame).headFrame = max ring.headFrame anchorFrame ∧
      (ring.beginReadAt tap anchorFrame).readerFrame = some anchorFrame := by
  obtain ⟨hwin, hhead⟩ := h.skipTo hanchor (le_refl _)
  have hkept : ¬((ring.skipTo tap anchorFrame ring.samples.length).headFrame <
      anchorFrame ∧ (ring.skipTo tap anchorFrame ring.samples.length).samples = []) := by
    rintro ⟨hlt, -⟩
    omega
  simp only [AudioTapRing.beginReadAt, if_neg hkept]
  exact ⟨⟨hwin.framed, hwin.count, hwin.head, hwin.samples, hwin.bounded⟩, hhead, trivial⟩

theorem takeAvailable (h : Window tap delivered ring) {reader : ℕ}
    (hreader : ring.readerFrame = some reader) :
    ∃ drained : AudioTapRing,
      ring.takeAvailable tap =
        (ring.headFrame - reader, (delivered.drop ring.headFrame).flatten, drained) ∧
      Window tap delivered drained ∧
      drained.headFrame = delivered.length ∧
      drained.readerFrame = some delivered.length := by
  have hcur := h.retained
  rw [h.count] at hcur
  refine ⟨{ ring with
      samples := []
      headFrame := delivered.length
      readerFrame := some delivered.length }, ?_,
    ⟨h.framed, h.count, le_refl _, ?_, zero_le _⟩, rfl, rfl⟩
  · rw [AudioTapRing.takeAvailable, hreader, ← h.samples, hcur]
  · rw [drop_length, flatten_nil]

end Window

end AudioTapRing

/-!
## The program PCM of a recording

The recorder worker anchors its reader at the audio clock of the first accepted
frame and then pumps the tap into a raw temporary.
-/

def maxAudioTempBytes : ℕ := 2 * 1024 * 1024 * 1024

def audioSilenceChunkSamples : ℕ := 65536

/-- `RecorderAudioCapture`; `file` is what its writer has been given. -/
structure RecorderAudioCapture where
  anchor : Option (ℕ × ℕ)
  capturedFrames : ℕ
  silenceGapFrames : ℕ
  (driftInsertedFrames driftDroppedFrames pendingDropFrames bytesWritten : ℕ)
  (truncated deviceLost : Bool)
  file : List F32

/-- The answer of the writer to the samples that follow a file. -/
abbrev AudioDisk := List F32 → List F32 → Except String Unit

namespace RecorderAudioCapture

/-- The capture that `open` returns. -/
def new : RecorderAudioCapture where
  anchor := none
  capturedFrames := 0
  silenceGapFrames := 0
  driftInsertedFrames := 0
  driftDroppedFrames := 0
  pendingDropFrames := 0
  bytesWritten := 0
  truncated := false
  deviceLost := false
  file := []

def totalFileFrames (capture : RecorderAudioCapture) : ℕ :=
  capture.capturedFrames + capture.silenceGapFrames + capture.driftInsertedFrames

variable (tap : ProgramAudioTap) (disk : AudioDisk)

def anchorAt (capture : RecorderAudioCapture) (ring : AudioTapRing)
    (metadata : RecorderFrameMetadata) :
    Except String (RecorderAudioCapture × AudioTapRing) :=
  if capture.anchor.isSome then .ok (capture, ring)
  else
    match metadata.audioClock with
    | none =>
      .error ("recording audio is armed but the accepted frame carries " ++ "no audio clock")
    | some stamp =>
      if stamp.sampleRate ≠ tap.sampleRate ∨ stamp.channels ≠ tap.channels then
        .error (s!"recording audio clock {stamp.sampleRate} Hz / "
          ++ s!"{stamp.channels} ch does not match the armed tap "
          ++ s!"({tap.sampleRate} Hz / {tap.channels} ch)")
      else
        .ok ({ capture with anchor := some (stamp.samplePosition, metadata.captureIndex) },
          ring.beginReadAt tap stamp.samplePosition)

def writeRawSamples (capture : RecorderAudioCapture) (samples : List F32) :
    Except String RecorderAudioCapture :=
  if samples = [] ∨ capture.truncated then .ok capture
  else if maxAudioTempBytes < saturatingAddU64 capture.bytesWritten (samples.length * 4) then
    .ok { capture with truncated := true }
  else do
    disk capture.file samples
    .ok { capture with
      file := capture.file ++ samples
      bytesWritten := capture.bytesWritten + samples.length * 4 }

/-- The loop of `write_silence_frames`, `fuel` passes at most. -/
def writeSilence (chunk : ℕ) : ℕ → RecorderAudioCapture → ℕ → ℕ →
    Except String (RecorderAudioCapture × ℕ)
  | 0, capture, _, written => .ok (capture, written)
  | fuel + 1, capture, remaining, written =>
    if remaining = 0 ∨ capture.truncated then .ok (capture, written)
    else do
      let take := min chunk remaining
      let capture ← capture.writeRawSamples disk (replicate take F32.zero)
      if capture.truncated then .ok (capture, written)
      else writeSilence chunk fuel capture (remaining - take) (written + take)

def writeSilenceFrames (capture : RecorderAudioCapture) (frames : ℕ) :
    Except String (RecorderAudioCapture × ℕ) :=
  if frames = 0 ∨ capture.truncated then .ok (capture, 0)
  else do
    let remaining := min (frames * tap.channels) u64Max
    let (capture, written) ← writeSilence disk
      (min audioSilenceChunkSamples remaining) remaining capture remaining 0
    .ok (capture, written / tap.channels)

/-- The part of `pump` that turns a gap into silence. -/
def fillGap (capture : RecorderAudioCapture) (gapFrames : ℕ) : Except String RecorderAudioCapture :=
  if 0 < gapFrames then do
    let (capture, written) ← writeSilenceFrames tap disk capture gapFrames
    .ok { capture with silenceGapFrames := capture.silenceGapFrames + written }
  else .ok capture

/-- The part of `pump` that drops pending frames and writes the others. -/
def drain (capture : RecorderAudioCapture) (scratch : List F32) :
    Except String RecorderAudioCapture := do
  let available := scratch.length / tap.channels
  let dropped := min available capture.pendingDropFrames
  let capture ← writeRawSamples disk
    { capture with
      pendingDropFrames := capture.pendingDropFrames - dropped
      driftDroppedFrames := capture.driftDroppedFrames + dropped }
    (scratch.drop (dropped * tap.channels))
  if capture.truncated then .ok capture
  else .ok { capture with capturedFrames := capture.capturedFrames + (available - dropped) }

def pump (capture : RecorderAudioCapture) (ring : AudioTapRing) :
    Except String (RecorderAudioCapture × AudioTapRing) :=
  if capture.anchor = none ∨ capture.truncated then .ok (capture, ring)
  else do
    let taken := ring.takeAvailable tap
    let capture ← fillGap tap disk
      { capture with deviceLost := capture.deviceLost || ring.deviceLost }
      taken.1
    let capture ← drain tap disk capture taken.2.1
    .ok (capture, taken.2.2)

variable {tap} {disk} {capture after : RecorderAudioCapture}

def wrote (capture : RecorderAudioCapture) (samples : List F32) : RecorderAudioCapture :=
  { capture with
    file := capture.file ++ samples
    bytesWritten := capture.bytesWritten + samples.length * 4 }

theorem wrote_nil (capture : RecorderAudioCapture) : capture.wrote [] = capture := by
  simp [wrote]

theorem wrote_append (capture : RecorderAudioCapture) (first rest : List F32) :
    (capture.wrote first).wrote rest = capture.wrote (first ++ rest) := by
  simp [wrote, add_mul, add_assoc]

variable {samples : List F32}

open Checks (bind_ok)

theorem writeRawSamples_ok (h : capture.writeRawSamples disk samples = .ok after)
    (hwhole : after.truncated = false) (hbytes : capture.bytesWritten ≤ maxAudioTempBytes) :
    after = capture.wrote samples ∧ after.bytesWritten ≤ maxAudioTempBytes := by
  unfold writeRawSamples at h
  split_ifs at h with hskip hfull
  · cases h
    obtain rfl | htrunc := hskip
    · exact ⟨(wrote_nil _).symm, hbytes⟩
    · rw [hwhole] at htrunc
      cases htrunc
  · cases h
    cases hwhole
  · obtain ⟨-, -, hafter⟩ := bind_ok.mp h
    cases hafter
    refine ⟨rfl, ?_⟩
    have hbd := Nat.le_of_not_lt hfull
    unfold saturatingAddU64 u64Max at hbd
    unfold maxAudioTempBytes at hbd ⊢
    simp only
    omega

variable {total : ℕ} {remaining written chunk fuel : ℕ}

theorem writeSilence_ok (hchunk : 0 < chunk) (hfuel : remaining ≤ fuel)
    (h : writeSilence disk chunk fuel capture remaining written =
      .ok (after, total)) (hwhole : after.truncated = false)
    (hbytes : capture.bytesWritten ≤ maxAudioTempBytes) :
    after = capture.wrote (replicate remaining F32.zero) ∧
      total = written + remaining ∧
      after.bytesWritten ≤ maxAudioTempBytes := by
  induction fuel generalizing capture remaining written with
  | zero =>
    obtain rfl := le_zero.mp hfuel
    cases h
    exact ⟨(wrote_nil _).symm, rfl, hbytes⟩
  | succ fuel ih =>
    rw [writeSilence] at h
    split_ifs at h with hdone
    · cases h
      obtain rfl | htrunc := hdone
      · exact ⟨(wrote_nil _).symm, rfl, hbytes⟩
      · rw [hwhole] at htrunc
        cases htrunc
    · obtain ⟨middle, hmid, hrest⟩ := bind_ok.mp h
      split_ifs at hrest with htrunc
      · cases hrest
        rw [hwhole] at htrunc
        cases htrunc
      · obtain ⟨rfl, hbd⟩ := writeRawSamples_ok hmid (Bool.eq_false_of_not_eq_true htrunc) hbytes
        obtain ⟨rfl, rfl, hbytes'⟩ := ih (by omega) hrest hbd
        refine ⟨?_, by omega, hbytes'⟩
        rw [wrote_append, ← replicate_add]
        congr 2
        omega

theorem writeSilenceFrames_ok {frames : ℕ}
    (h : writeSilenceFrames tap disk capture frames = .ok (after, total))
    (hwhole : after.truncated = false) (hbytes : capture.bytesWritten ≤ maxAudioTempBytes) :
    after = capture.wrote (replicate (frames * tap.channels) F32.zero) ∧
      total = frames ∧ after.bytesWritten ≤ maxAudioTempBytes := by
  unfold writeSilenceFrames at h
  split_ifs at h with hskip
  · cases h
    obtain rfl | htrunc := hskip
    · rw [zero_mul]
      exact ⟨(wrote_nil _).symm, rfl, hbytes⟩
    · rw [hwhole] at htrunc
      cases htrunc
  · obtain ⟨⟨middle, written⟩, hloop, hrest⟩ := bind_ok.mp h
    cases hrest
    have hpos : 0 < frames * tap.channels :=
      mul_pos (pos_of_ne_zero fun h => hskip (.inl h)) tap.channels_pos
    have hchunk : 0 < min audioSilenceChunkSamples (min (frames * tap.channels) u64Max) := by
      unfold audioSilenceChunkSamples u64Max
      omega
    obtain ⟨rfl, rfl, hbd⟩ := writeSilence_ok hchunk (le_refl _) hloop hwhole hbytes
    have hfits : min (frames * tap.channels) u64Max = frames * tap.channels := by
      simp only [wrote, length_replicate, maxAudioTempBytes] at hbd
      unfold u64Max at hbd ⊢
      omega
    rw [hfits] at hbd ⊢
    refine ⟨rfl, ?_, hbd⟩
    rw [Nat.zero_add, Nat.mul_div_cancel _ tap.channels_pos]

variable {gapFrames : ℕ}

theorem fillGap_ok (h : fillGap tap disk capture gapFrames = .ok after)
    (hwhole : after.truncated = false) (hbytes : capture.bytesWritten ≤ maxAudioTempBytes) :
    after = { capture.wrote (replicate (gapFrames * tap.channels) F32.zero) with
      silenceGapFrames := capture.silenceGapFrames + gapFrames } ∧
      after.bytesWritten ≤ maxAudioTempBytes := by
  unfold fillGap at h
  split_ifs at h with hgap
  · obtain ⟨⟨middle, written⟩, hsilence, hend⟩ := bind_ok.mp h
    cases hend
    obtain ⟨rfl, rfl, hbd⟩ := writeSilenceFrames_ok hsilence hwhole hbytes
    exact ⟨rfl, hbd⟩
  · cases h
    obtain rfl : gapFrames = 0 := by omega
    rw [Nat.zero_mul, replicate_zero, wrote_nil]
    exact ⟨rfl, hbytes⟩

variable {scratch : List F32}

theorem drain_ok (h : drain tap disk capture scratch = .ok after) (hwhole : after.truncated = false)
    (hpend : capture.pendingDropFrames = 0) (hbytes : capture.bytesWritten ≤ maxAudioTempBytes) :
    after = { capture.wrote scratch with
      capturedFrames := capture.capturedFrames + scratch.length / tap.channels } ∧
      after.bytesWritten ≤ maxAudioTempBytes := by
  obtain ⟨middle, hwrite, hend⟩ := bind_ok.mp h
  simp only [hpend, Nat.min_zero, Nat.zero_mul, drop_zero, Nat.sub_zero,
    add_zero] at hwrite hend
  split_ifs at hend with htrunc
  · cases hend
    rw [hwhole] at htrunc
    cases htrunc
  · cases hend
    obtain ⟨rfl, hbd⟩ := writeRawSamples_ok hwrite (Bool.eq_false_of_not_eq_true htrunc) hbytes
    refine ⟨?_, hbd⟩
    simp [wrote, hpend]

theorem writeRawSamples_truncated (h : capture.writeRawSamples disk samples = .ok after)
    (htrunc : capture.truncated = true) : after.truncated = true := by
  unfold writeRawSamples at h
  rw [if_pos (.inr htrunc)] at h
  cases h
  exact htrunc

theorem drain_truncated (h : drain tap disk capture scratch = .ok after)
    (htrunc : capture.truncated = true) : after.truncated = true := by
  obtain ⟨middle, hwrite, hend⟩ := bind_ok.mp h
  have hmid := writeRawSamples_truncated hwrite htrunc
  rw [if_pos hmid] at hend
  cases hend
  exact hmid

def setup (capture : RecorderAudioCapture) : Option (ℕ × ℕ) × ℕ × ℕ :=
  (capture.anchor, capture.driftInsertedFrames, capture.pendingDropFrames)

theorem writeRawSamples_setup (h : capture.writeRawSamples disk samples = .ok after) :
    after.setup = capture.setup := by
  unfold writeRawSamples at h
  split_ifs at h
  · cases h
    rfl
  · cases h
    rfl
  · obtain ⟨-, -, hafter⟩ := bind_ok.mp h
    cases hafter
    rfl

theorem writeSilence_setup
    (h : writeSilence disk chunk fuel capture remaining written =
      .ok (after, total)) : after.setup = capture.setup := by
  induction fuel generalizing capture remaining written with
  | zero =>
    cases h
    rfl
  | succ fuel ih =>
    rw [writeSilence] at h
    split_ifs at h with hdone
    · cases h
      rfl
    · obtain ⟨middle, hmid, hrest⟩ := bind_ok.mp h
      have hsame := writeRawSamples_setup hmid
      split_ifs at hrest
      · cases hrest
        exact hsame
      · exact (ih hrest).trans hsame

theorem fillGap_setup (h : fillGap tap disk capture gapFrames = .ok after) :
    after.setup = capture.setup := by
  unfold fillGap writeSilenceFrames at h
  split_ifs at h with hgap hskip
  · obtain ⟨⟨middle, written⟩, hsilence, hend⟩ := bind_ok.mp h
    cases hsilence
    cases hend
    rfl
  · obtain ⟨⟨middle, written⟩, hsilence, hend⟩ := bind_ok.mp h
    obtain ⟨⟨filled, total⟩, hloop, hrest⟩ := bind_ok.mp hsilence
    cases hrest
    cases hend
    have hsame := writeSilence_setup hloop
    exact hsame
  · cases h
    rfl

theorem drain_setup (h : drain tap disk capture scratch = .ok after)
    (hpend : capture.pendingDropFrames = 0) :
    after.setup = capture.setup := by
  obtain ⟨middle, hwrite, hend⟩ := bind_ok.mp h
  have hsame := writeRawSamples_setup hwrite
  have hkept : middle.setup = capture.setup := by rw [hsame, setup, setup, hpend, Nat.zero_sub]
  split_ifs at hend
  · cases hend
    exact hkept
  · cases hend
    exact hkept

variable {ring' : AudioTapRing} {ring : AudioTapRing}

theorem pump_setup (h : pump tap disk capture ring = .ok (after, ring'))
    (hanchor : capture.anchor ≠ none) (hwhole : capture.truncated = false)
    (hpend : capture.pendingDropFrames = 0) :
    after.setup = capture.setup ∧ ring' = (ring.takeAvailable tap).2.2 := by
  unfold pump at h
  rw [if_neg (by simp [hanchor, hwhole])] at h
  obtain ⟨middle, hgap, hrest⟩ := bind_ok.mp h
  obtain ⟨final, hdrain, hend⟩ := bind_ok.mp hrest
  cases hend
  have hsame := fillGap_setup hgap
  have hpending' : middle.pendingDropFrames = 0 := by
    have hthird := congrArg (fun tuple => tuple.2.2) hsame
    exact hthird.trans hpend
  exact ⟨(drain_setup hdrain hpending').trans hsame, rfl⟩

/-- The capture after a gap of silence and the samples that follow it. -/
def pumped (tap : ProgramAudioTap) (capture : RecorderAudioCapture)
    (gapFrames : ℕ) (scratch : List F32) (deviceLost : Bool) :
    RecorderAudioCapture :=
  { (capture.wrote (replicate (gapFrames * tap.channels) F32.zero)).wrote
      scratch with
    deviceLost := capture.deviceLost || deviceLost
    silenceGapFrames := capture.silenceGapFrames + gapFrames
    capturedFrames := capture.capturedFrames + scratch.length / tap.channels }

theorem pump_ok (h : pump tap disk capture ring = .ok (after, ring'))
    (hanchor : capture.anchor ≠ none) (hwhole : after.truncated = false)
    (hpend : capture.pendingDropFrames = 0) (hbytes : capture.bytesWritten ≤ maxAudioTempBytes) :
    after = capture.pumped tap (ring.takeAvailable tap).1
        (ring.takeAvailable tap).2.1 ring.deviceLost ∧
      ring' = (ring.takeAvailable tap).2.2 ∧
      after.bytesWritten ≤ maxAudioTempBytes := by
  unfold pump at h
  split_ifs at h with hskip
  · cases h
    obtain hnone | htrunc := hskip
    · exact absurd hnone hanchor
    · rw [hwhole] at htrunc
      cases htrunc
  · obtain ⟨middle, hgap, hrest⟩ := bind_ok.mp h
    obtain ⟨final, hdrain, hend⟩ := bind_ok.mp hrest
    cases hend
    have hmid : middle.truncated = false := by
      cases htrunc : middle.truncated with
      | false => rfl
      | true =>
        have hfull := drain_truncated hdrain htrunc
        rw [hwhole] at hfull
        cases hfull
    obtain ⟨rfl, hbytes'⟩ := fillGap_ok hgap hmid hbytes
    obtain ⟨rfl, hbd⟩ := drain_ok hdrain hwhole hpend hbytes'
    exact ⟨rfl, rfl, hbd⟩

end RecorderAudioCapture

end CollideOScope.Recorder
