import CollideOScope.Recorder.AudioCapture
import Mathlib.Algebra.Order.Group.Int

/-!
# Drift correction

The worker compares the device clock with the capture cadence and drops or
inserts frames once they differ by a quarter of a second.  A drop waits until
frames arrive, and the measurement adds the waiting frames where it should
subtract them, so a slip that is scheduled already is measured again.
-/

namespace CollideOScope.Recorder

structure RecorderFrameRate where
  (numerator denominator : ℕ)

namespace RecorderAudioCapture

variable (tap : ProgramAudioTap) (disk : AudioDisk) (rate : RecorderFrameRate)

def driftThreshold : ℕ := tap.sampleRate / 4

/-- How far the device clock is ahead of the capture cadence. -/
def rawSlip (anchor : ℕ × ℕ) (stamp : AudioClockStamp) (captureIndex : ℕ) : ℤ :=
  (stamp.samplePosition - anchor.1 : ℕ) -
    ((captureIndex - anchor.2) * tap.sampleRate * rate.denominator /
      rate.numerator : ℕ)

def correctDrift (capture : RecorderAudioCapture)
    (metadata : RecorderFrameMetadata) : Except String RecorderAudioCapture :=
  match capture.anchor, metadata.audioClock with
  | some anchor, some stamp =>
    if capture.truncated ∨ capture.deviceLost then .ok capture
    else
      let raw := rawSlip tap rate anchor stamp metadata.captureIndex
      let netCorrection : ℤ := capture.driftDroppedFrames - capture.driftInsertedFrames
      let drift := raw - netCorrection + capture.pendingDropFrames
      if driftThreshold tap ≤ drift then
        .ok { capture with pendingDropFrames := capture.pendingDropFrames + drift.toNat }
      else if drift ≤ -driftThreshold tap then do
        let (capture, inserted) ← capture.writeSilenceFrames tap disk
          (-drift).toNat
        .ok { capture with driftInsertedFrames := capture.driftInsertedFrames + inserted }
      else .ok capture
  | _, _ => .ok capture

def accounted (capture : RecorderAudioCapture) : ℤ :=
  capture.driftDroppedFrames + capture.pendingDropFrames - capture.driftInsertedFrames

inductive DriftCall
  | pump (ring : AudioTapRing)
  | correctDrift (metadata : RecorderFrameMetadata)

def call (capture : RecorderAudioCapture) : DriftCall → Except String RecorderAudioCapture
  | .pump ring => (capture.pump tap disk ring).map Prod.fst
  | .correctDrift metadata => capture.correctDrift tap disk rate metadata

/-- The result of a call, while the recording goes on. -/
def driftStep (capture : RecorderAudioCapture) (call : DriftCall) : Option RecorderAudioCapture :=
  match capture.call tap disk rate call with
  | .ok after => if after.truncated ∨ after.deviceLost then none else some after
  | .error _ => none

/-- The calls on an anchored capture that is neither truncated nor lost. -/
def driftRuns : Machine RecorderAudioCapture DriftCall where
  start capture := ∃ anchor, capture = { new with anchor := some anchor }
  step := driftStep tap disk rate

def measured (capture : RecorderAudioCapture) : DriftCall → Option ℤ
  | .pump _ => none
  | .correctDrift metadata =>
    match capture.anchor, metadata.audioClock with
    | some anchor, some stamp => some (rawSlip tap rate anchor stamp metadata.captureIndex)
    | _, _ => none

/-- No drop is pending when the slip is measured, or the frames that are pending
neither schedule a drop nor hide that frames are missing. -/
def Settled (capture : RecorderAudioCapture) (call : DriftCall) : Prop :=
  ∀ raw ∈ capture.measured tap rate call, capture.pendingDropFrames = 0 ∨
    raw - capture.accounted + 2 * capture.pendingDropFrames < driftThreshold tap ∧
      (-driftThreshold tap < raw - capture.accounted ∨
        raw - capture.accounted + 2 * capture.pendingDropFrames ≤ -driftThreshold tap ∧
          2 * capture.pendingDropFrames < driftThreshold tap)

structure Corrects (capture : RecorderAudioCapture) (call : DriftCall)
    (after : RecorderAudioCapture) : Prop where
  bounded : ∀ raw ∈ capture.measured tap rate call,
    |raw - after.accounted| < driftThreshold tap
  scheduled : capture.pendingDropFrames < after.pendingDropFrames →
    ∃ raw ∈ capture.measured tap rate call, capture.pendingDropFrames = 0 ∧
      after.pendingDropFrames = raw - capture.accounted ∧
      after.accounted = raw
  accounted : after.accounted ≤ capture.accounted ∨
    ∃ raw ∈ capture.measured tap rate call, after.accounted = raw

section

variable {tap disk rate} {capture after : RecorderAudioCapture}

open Checks (bind_ok)

/-- What a call keeps while the recording goes on. -/
structure Whole (capture : RecorderAudioCapture) : Prop where
  bytes : capture.bytesWritten ≤ maxAudioTempBytes
  truncated : capture.truncated = false
  deviceLost : capture.deviceLost = false

theorem drain_accounted {scratch : List F32} (h : drain tap disk capture scratch = .ok after)
    (hwhole : after.truncated = false) (hbytes : capture.bytesWritten ≤ maxAudioTempBytes) :
    after.accounted = capture.accounted ∧
      after.pendingDropFrames ≤ capture.pendingDropFrames ∧
      after.bytesWritten ≤ maxAudioTempBytes := by
  obtain ⟨middle, hwrite, hend⟩ := bind_ok.mp h
  split_ifs at hend with htrunc
  · cases hend
    rw [hwhole] at htrunc
    cases htrunc
  · cases hend
    obtain ⟨rfl, hbd⟩ := writeRawSamples_ok hwrite (Bool.eq_false_of_not_eq_true htrunc) hbytes
    refine ⟨?_, Nat.sub_le _ _, hbd⟩
    simp only [wrote, accounted]
    omega

theorem pump_accounted {ring ring' : AudioTapRing} (h : capture.Whole)
    (hpump : pump tap disk capture ring = .ok (after, ring')) (hwhole : after.truncated = false) :
    after.accounted = capture.accounted ∧
      after.pendingDropFrames ≤ capture.pendingDropFrames ∧
      after.bytesWritten ≤ maxAudioTempBytes := by
  unfold pump at hpump
  split_ifs at hpump with hskip
  · cases hpump
    exact ⟨rfl, Nat.le_refl _, h.bytes⟩
  · obtain ⟨middle, hgap, hrest⟩ := bind_ok.mp hpump
    obtain ⟨final, hdrain, hend⟩ := bind_ok.mp hrest
    cases hend
    have hmid : middle.truncated = false := by
      by_contra htrunc
      have hfinal := drain_truncated hdrain (by simpa using htrunc)
      rw [hwhole] at hfinal
      cases hfinal
    obtain ⟨rfl, hbytes⟩ := fillGap_ok hgap hmid h.bytes
    have hdrained := drain_accounted hdrain hwhole hbytes
    exact hdrained

theorem correctDrift_corrects {metadata : RecorderFrameMetadata} (hrate : 8000 ≤ tap.sampleRate)
    (h : capture.Whole) (hguard : Settled tap rate capture (.correctDrift metadata))
    (hstep : capture.correctDrift tap disk rate metadata = .ok after)
    (hwhole : after.truncated = false) :
    Corrects tap rate capture (.correctDrift metadata) after ∧
      after.bytesWritten ≤ maxAudioTempBytes := by
  have hthr : 0 < driftThreshold tap := by
    unfold driftThreshold
    omega
  unfold correctDrift at hstep
  split at hstep
  · rename_i anchor stamp hanchor hstamp
    rw [if_neg (by simp [h.truncated, h.deviceLost])] at hstep
    have hmeas : measured tap rate capture (.correctDrift metadata) =
        some (rawSlip tap rate anchor stamp metadata.captureIndex) := by
      simp [measured, hanchor, hstamp]
    generalize hraw : rawSlip tap rate anchor stamp metadata.captureIndex = raw
      at hmeas hstep
    have hpend := hguard raw hmeas
    simp only [accounted] at hpend
    dsimp only at hstep
    split_ifs at hstep with hahead hbehind
    · cases hstep
      have hset : capture.pendingDropFrames = 0 := by omega
      refine ⟨⟨?_, ?_, ?_⟩, h.bytes⟩
      · rintro _ hmem
        obtain rfl := Option.some.inj (hmeas.symm.trans hmem)
        rw [abs_lt]
        simp only [accounted]
        omega
      · intro _
        refine ⟨raw, hmeas, hset, ?_, ?_⟩
        · simp only [accounted]
          omega
        · simp only [accounted]
          omega
      · refine .inr ⟨raw, hmeas, ?_⟩
        simp only [accounted]
        omega
    · obtain ⟨⟨middle, inserted⟩, hsilence, hend⟩ := bind_ok.mp hstep
      cases hend
      obtain ⟨rfl, rfl, hbytes⟩ := writeSilenceFrames_ok hsilence hwhole h.bytes
      refine ⟨⟨?_, fun hmore => absurd hmore (lt_irrefl _), .inl ?_⟩, hbytes⟩
      · rintro _ hmem
        obtain rfl := Option.some.inj (hmeas.symm.trans hmem)
        rw [abs_lt]
        simp only [wrote, accounted]
        omega
      · simp only [wrote, accounted]
        omega
    · cases hstep
      refine ⟨⟨?_, fun hmore => absurd hmore (Nat.lt_irrefl _), .inl le_rfl⟩, h.bytes⟩
      rintro _ hmem
      obtain rfl := Option.some.inj (hmeas.symm.trans hmem)
      rw [abs_lt]
      simp only [accounted]
      omega
  · rename_i hnone
    cases hstep
    have hmeas : measured tap rate capture (.correctDrift metadata) = none := by
      simp only [measured]
    refine ⟨⟨?_, fun hmore => absurd hmore (Nat.lt_irrefl _), .inl le_rfl⟩, h.bytes⟩
    simp [hmeas]

theorem driftStep_corrects {call : DriftCall} (hrate : 8000 ≤ tap.sampleRate)
    (h : capture.Whole) (hguard : Settled tap rate capture call)
    (hstep : driftStep tap disk rate capture call = some after) :
    Corrects tap rate capture call after ∧ after.Whole := by
  unfold driftStep at hstep
  split at hstep
  · rename_i result hres
    split_ifs at hstep with hlost
    cases hstep
    simp only [not_or, Bool.not_eq_true] at hlost
    cases call with
    | pump ring =>
      cases hpump : pump tap disk capture ring with
      | error text => simp [RecorderAudioCapture.call, hpump, Except.map] at hres
      | ok pumped =>
        simp only [RecorderAudioCapture.call, hpump, Except.map, Except.ok.injEq] at hres
        subst hres
        obtain ⟨hsame, hle, hbytes⟩ := pump_accounted h hpump hlost.1
        exact ⟨⟨by simp [measured], fun hmore => absurd hle hmore.not_ge,
          .inl hsame.le⟩, hbytes, hlost.1, hlost.2⟩
    | correctDrift metadata =>
      obtain ⟨hcorrects, hbytes⟩ := correctDrift_corrects hrate h hguard hres hlost.1
      exact ⟨hcorrects, hbytes, hlost.1, hlost.2⟩
  · cases hstep

theorem Whole.of_reachableBy (hrate : 8000 ≤ tap.sampleRate)
    (h : (driftRuns tap disk rate).ReachableBy (Settled tap rate) capture) :
    capture.Whole := by
  refine h.invariant ?_ ?_
  · rintro _ ⟨anchor, rfl⟩
    exact ⟨Nat.zero_le _, rfl, rfl⟩
  · intro capture call after hwhole hguard hstep
    exact (driftStep_corrects hrate hwhole hguard hstep).2

/-- While each measurement is settled, a slip is corrected once and to within
the threshold, and no more frames are dropped than the slip asks for. -/
theorem drift_corrected_once (hrate : 8000 ≤ tap.sampleRate)
    (h : (driftRuns tap disk rate).ReachableBy (Settled tap rate) capture) :
    (∀ call after, Settled tap rate capture call →
      driftStep tap disk rate capture call = some after → Corrects tap rate capture call after) ∧
    ∀ (raw : ℤ) after,
      (driftRuns tap disk rate).Run (fun capture call =>
        Settled tap rate capture call ∧
          ∀ found ∈ capture.measured tap rate call, found = raw) capture after →
      after.accounted ≤ max capture.accounted raw := by
  have hwhole := Whole.of_reachableBy hrate h
  refine ⟨fun call after hguard hstep => (driftStep_corrects hrate hwhole hguard hstep).1, ?_⟩
  intro raw after hrun
  refine (hrun.preserves (P := fun now => now.Whole ∧
    now.accounted ≤ max capture.accounted raw) ?_ ⟨hwhole, le_max_left _ _⟩).2
  rintro now call next ⟨hnow, hbound⟩ ⟨hguard, hraw⟩ hstep
  obtain ⟨hcorrects, hnext⟩ := driftStep_corrects hrate hnow hguard hstep
  refine ⟨hnext, ?_⟩
  obtain hle | ⟨found, hfound, haccounted⟩ := hcorrects.accounted
  · exact hle.trans hbound
  · rw [haccounted, hraw found hfound]
    exact le_max_right _ _

end

def driftTap : ProgramAudioTap where
  sampleRate := 8000
  channels := 6
  capacitySamples := 6
  channels_pos := by decide
  channels_le := by decide
  capacity := by decide

def anchoredCapture : RecorderAudioCapture := { new with anchor := some (0, 0) }

/-- A frame that finds the device a quarter of a second ahead. -/
def aheadFrame : RecorderFrameMetadata := ⟨0, 0, 0, 0, false, false, false, some ⟨2000, 8000, 1⟩⟩

theorem drift_corrected_once_ahead :
    Corrects driftTap ⟨30, 1⟩ anchoredCapture (.correctDrift aheadFrame)
      { anchoredCapture with pendingDropFrames := 2000 } := by
  have hreach : (driftRuns driftTap (fun _ _ => .ok ()) ⟨30, 1⟩).ReachableBy
      (Settled driftTap ⟨30, 1⟩) anchoredCapture :=
    ⟨_, ⟨(0, 0), rfl⟩, .refl _⟩
  exact (drift_corrected_once (by decide) hreach).1 _ _ (fun _ _ => .inl rfl) rfl

/-- The same frame again schedules the slip a second and a third time. -/
theorem slip_scheduled_twice :
    ((driftRuns driftTap (fun _ _ => .ok ()) ⟨30, 1⟩).exec anchoredCapture
      [.correctDrift aheadFrame, .correctDrift aheadFrame]).map (fun capture =>
        (measured driftTap ⟨30, 1⟩ capture (.correctDrift aheadFrame),
          capture.accounted, driftThreshold driftTap)) =
      some (some 2000, 6000, 2000) := by
  decide

end RecorderAudioCapture

end CollideOScope.Recorder
