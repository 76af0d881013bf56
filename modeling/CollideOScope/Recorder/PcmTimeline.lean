import CollideOScope.Recorder.AudioCapture

/-!
# The PCM timeline of a recording

Pushes of the audio callback and the anchor and pumps of the recorder worker
interleave freely.  The history keeps the frames that the device delivered and
the indices that the bounded ring discarded.  The file holds the delivered
frames in order from the anchor to the reader, and a silent frame in the place
of each discarded one.
-/

namespace CollideOScope.Recorder

open Nat Option RecorderAudioCapture List

/-- The tap, the capture, and the history of deliveries and discards. -/
structure ProgramPcm where
  ring : AudioTapRing
  capture : RecorderAudioCapture
  delivered : List (List F32)
  discarded : List ℕ

inductive PcmLabel where
  | push (samples : List F32) (channelCount : ℕ)
  | anchor (metadata : RecorderFrameMetadata)
  | pump

namespace ProgramPcm

variable (tap : ProgramAudioTap) (disk : AudioDisk)

def new : ProgramPcm := ⟨.new, .new, [], []⟩

def pushed (samples : List F32) (channelCount : ℕ) : List (List F32) :=
  if channelCount ≠ tap.channels then [] else AudioTapRing.framesOf tap samples

/-- One call of the callback or of the worker.  A call of the worker that fails
ends the recording. -/
def step (s : ProgramPcm) : PcmLabel → Option ProgramPcm
  | .push samples channelCount =>
    let ring := s.ring.pushInterleaved tap samples channelCount
    some { s with
      ring := ring
      delivered := s.delivered ++ pushed tap samples channelCount
      discarded := s.discarded ++ range' s.ring.headFrame (ring.headFrame - s.ring.headFrame) }
  | .anchor metadata =>
    match s.capture.anchorAt tap s.ring metadata with
    | .error _ => none
    | .ok (capture, ring) => some { s with capture := capture, ring := ring }
  | .pump =>
    match s.capture.pump tap disk s.ring with
    | .error _ => none
    | .ok (capture, ring) => some { s with capture := capture, ring := ring }

def machine : Machine ProgramPcm PcmLabel where
  start s := s = new
  step := step tap disk

/-- The stamp of a frame is a position that the device has delivered. -/
def Stamped (s : ProgramPcm) : PcmLabel → Prop
  | .anchor metadata =>
    metadata.audioClock.all
      fun stamp => stamp.samplePosition ≤ s.ring.deliveredFrames
  | _ => True

instance (s : ProgramPcm) : ∀ label, Decidable (s.Stamped label)
  | .push _ _ => inferInstanceAs (Decidable True)
  | .anchor _ => inferInstanceAs (Decidable (_ = true))
  | .pump => inferInstanceAs (Decidable True)

end ProgramPcm

section

variable (tap : ProgramAudioTap) (delivered : List (List F32))
variable (discarded : List ℕ)

/-- The frame of the timeline at a delivery index. -/
def frameAt (k : ℕ) : List F32 :=
  if k ∈ discarded then replicate tap.channels F32.zero
  else delivered[k]?.getD []

/-- The frames from `first` on and before `last`. -/
def timeline (first last : ℕ) : List F32 :=
  (range' first (last - first)).flatMap (frameAt tap delivered discarded)

/-- The indices between two positions that satisfy `p`. -/
def countBetween (p : ℕ → Bool) (first last : ℕ) : ℕ := (range' first (last - first)).countP p

variable {tap} {delivered} {discarded} {first middle last : ℕ}

theorem range'_split (hfst : first ≤ middle) (hlast : middle ≤ last) :
    range' first (last - first) =
      range' first (middle - first) ++ range' middle (last - middle) := by
  have happ := range'_append_1 (s := first) (m := middle - first) (n := last - middle)
  rw [add_sub_of_le hfst] at happ
  rw [happ]
  congr 1
  omega

theorem timeline_split (hfst : first ≤ middle) (hlast : middle ≤ last) :
    timeline tap delivered discarded first last =
      timeline tap delivered discarded first middle ++
        timeline tap delivered discarded middle last := by
  rw [timeline, range'_split hfst hlast, flatMap_append]
  rfl

variable {p : ℕ → Bool}

theorem countBetween_split (hfst : first ≤ middle) (hlast : middle ≤ last) :
    countBetween p first last = countBetween p first middle + countBetween p middle last := by
  rw [countBetween, range'_split hfst hlast, countP_append]
  rfl

theorem countBetween_not (p : ℕ → Bool) (first last : ℕ) :
    countBetween (fun k => !p k) first last + countBetween p first last = last - first := by
  have hlen := length_eq_countP_add_countP p (l := range' first (last - first))
  rw [length_range'] at hlen
  rw [countBetween, countBetween]
  have hsame : countP (fun k => !p k) (range' first (last - first)) =
      countP (fun k => decide ¬p k = true) (range' first (last - first)) := by
    apply countP_congr
    intro k _
    simp
  omega

theorem countBetween_of_all (h : ∀ k, first ≤ k → k < last → p k = true) :
    countBetween p first last = last - first := by
  rw [countBetween, countP_eq_length.mpr, length_range']
  intro k hk
  obtain ⟨hfst, hlast⟩ := mem_range'_1.mp hk
  exact h k hfst (by omega)

theorem timeline_of_discarded (h : ∀ k, first ≤ k → k < last → k ∈ discarded) :
    timeline tap delivered discarded first last =
      replicate ((last - first) * tap.channels) F32.zero := by
  have hsilent : (range' first (last - first)).map
      (frameAt tap delivered discarded) =
        replicate (last - first) (replicate tap.channels F32.zero) := by
    rw [eq_replicate_iff]
    refine ⟨by rw [length_map, length_range'], fun frame hframe => ?_⟩
    obtain ⟨k, hk, rfl⟩ := mem_map.mp hframe
    obtain ⟨hfst, hlast⟩ := mem_range'_1.mp hk
    rw [frameAt, if_pos (h k hfst (by omega))]
  rw [timeline, flatMap_def, hsilent, flatten_replicate_replicate]

theorem timeline_of_retained (h : ∀ k, first ≤ k → k ∉ discarded) :
    timeline tap delivered discarded first delivered.length = (delivered.drop first).flatten := by
  have hret : (range' first (delivered.length - first)).map
      (frameAt tap delivered discarded) = delivered.drop first := by
    apply ext_getElem
    · rw [length_map, length_range', length_drop]
    · intro i hi hdrop
      rw [length_drop] at hdrop
      rw [getElem_map, getElem_range', getElem_drop, frameAt, if_neg (h _ (by omega)),
        getElem?_eq_getElem (by omega), getD_some]
      congr 1
      omega
  rw [timeline, flatMap_def, hret]

theorem timeline_congr {delivered' : List (List F32)} {discarded' : List ℕ}
    (hdelivered : ∀ k < last, delivered'[k]? = delivered[k]?)
    (hdiscarded : ∀ k < last, k ∈ discarded' ↔ k ∈ discarded) :
    timeline tap delivered' discarded' first last =
      timeline tap delivered discarded first last := by
  apply flatMap_congr
  intro k hk
  obtain ⟨hfst, hlast⟩ := mem_range'_1.mp hk
  have hlt : k < last := by omega
  simp only [frameAt, hdelivered k hlt, hdiscarded k hlt]

theorem countBetween_congr {q : ℕ → Bool} (h : ∀ k < last, q k = p k) :
    countBetween q first last = countBetween p first last := by
  apply countP_congr
  intro k hk
  obtain ⟨hfst, hlast⟩ := mem_range'_1.mp hk
  rw [h k (by omega)]

end

structure Written (tap : ProgramAudioTap) (delivered : List (List F32)) (discarded : List ℕ)
    (capture : RecorderAudioCapture) (position reader : ℕ) : Prop where
  file : capture.file = timeline tap delivered discarded position reader
  captured : capture.capturedFrames =
    countBetween (fun k => !decide (k ∈ discarded)) position reader
  silence : capture.silenceGapFrames =
    countBetween (fun k => decide (k ∈ discarded)) position reader
  bytes : capture.bytesWritten ≤ maxAudioTempBytes

/-- What holds of every reachable state.  The frames between the reader and the
head are those that the ring discarded. -/
structure PcmSound (tap : ProgramAudioTap) (s : ProgramPcm) : Prop where
  window : AudioTapRing.Window tap s.delivered s.ring
  lost : ∀ k ∈ s.discarded, k < s.ring.headFrame
  pending : s.capture.pendingDropFrames = 0
  inserted : s.capture.driftInsertedFrames = 0
  idle : s.capture.anchor = none →
    s.ring.readerFrame = none ∧ s.capture.file = [] ∧
      s.capture.capturedFrames = 0 ∧ s.capture.silenceGapFrames = 0 ∧
      s.capture.bytesWritten = 0 ∧
      ∀ k < s.ring.headFrame, k ∈ s.discarded
  anchored : ∀ position index, s.capture.anchor = some (position, index) →
    ∃ reader, s.ring.readerFrame = some reader ∧ position ≤ reader ∧
      reader ≤ s.ring.headFrame ∧
      (∀ k, reader ≤ k → k < s.ring.headFrame → k ∈ s.discarded) ∧
      (s.capture.truncated = false → Written tap s.delivered s.discarded s.capture position reader)

namespace PcmSound

variable {tap : ProgramAudioTap} {disk : AudioDisk} {s t : ProgramPcm}

theorem new (tap : ProgramAudioTap) : PcmSound tap .new where
  window := AudioTapRing.window_new
  lost k hk := by cases hk
  pending := rfl
  inserted := rfl
  idle _ := ⟨rfl, rfl, rfl, rfl, rfl, fun k hk => absurd hk (not_lt_zero k)⟩
  anchored position index hanchor := by cases hanchor

section

variable (h : PcmSound tap s)
include h

theorem pushInterleaved (samples : List F32) (channelCount : ℕ) :
    AudioTapRing.Window tap (s.delivered ++ ProgramPcm.pushed tap samples channelCount)
        (s.ring.pushInterleaved tap samples channelCount) ∧
      s.ring.headFrame ≤ (s.ring.pushInterleaved tap samples channelCount).headFrame ∧
      (s.ring.pushInterleaved tap samples channelCount).readerFrame = s.ring.readerFrame := by
  unfold AudioTapRing.pushInterleaved ProgramPcm.pushed
  split_ifs with hchannels
  · rw [append_nil]
    exact ⟨⟨h.window.framed, h.window.count, h.window.head, h.window.samples,
      h.window.bounded⟩, le_refl _, rfl⟩
  · exact h.window.pushFrames (AudioTapRing.Window.framesOf tap samples)

theorem push {samples : List F32} {channelCount : ℕ}
    (hstep : s.step tap disk (.push samples channelCount) = some t) :
    PcmSound tap t := by
  cases hstep
  obtain ⟨hwin, hhead, hreader⟩ := h.pushInterleaved samples channelCount
  generalize s.ring.pushInterleaved tap samples channelCount = ring at *
  have hmem (k : ℕ) : k ∈ s.discarded ++ range' s.ring.headFrame
      (ring.headFrame - s.ring.headFrame) ↔
        k ∈ s.discarded ∨ (s.ring.headFrame ≤ k ∧ k < ring.headFrame) := by
    rw [mem_append, mem_range'_1]
    constructor
    · rintro (hearl | ⟨hle, hlt⟩)
      · exact .inl hearl
      · exact .inr ⟨hle, by omega⟩
    · rintro (hearl | ⟨hle, hlt⟩)
      · exact .inl hearl
      · exact .inr ⟨hle, by omega⟩
  refine ⟨hwin, ?_, h.pending, h.inserted, ?_, ?_⟩
  · intro k hk
    obtain hearl | ⟨-, hlt⟩ := (hmem k).mp hk
    · exact (h.lost k hearl).trans_le hhead
    · exact hlt
  · intro hanchor
    obtain ⟨hnone, hfile, hcap, hsilence, hbytes, hlost⟩ := h.idle hanchor
    refine ⟨hreader.trans hnone, hfile, hcap, hsilence, hbytes, ?_⟩
    intro k hk
    by_cases hlt : k < s.ring.headFrame
    · exact (hmem k).mpr (.inl (hlost k hlt))
    · exact (hmem k).mpr (.inr ⟨Nat.le_of_not_lt hlt, hk⟩)
  · intro position index hanchor
    obtain ⟨reader, hsome, hpos, hle, hlost, hwrit⟩ := h.anchored position index hanchor
    refine ⟨reader, hreader.trans hsome, hpos, hle.trans hhead, ?_, ?_⟩
    · intro k hread hk
      by_cases hlt : k < s.ring.headFrame
      · exact (hmem k).mpr (.inl (hlost k hread hlt))
      · exact (hmem k).mpr (.inr ⟨Nat.le_of_not_lt hlt, hk⟩)
    · intro hwhole
      have hw := hwrit hwhole
      have hsame (k : ℕ) (hk : k < reader) :
          k ∈ s.discarded ++ range' s.ring.headFrame
            (ring.headFrame - s.ring.headFrame) ↔ k ∈ s.discarded := by
        rw [hmem]
        exact or_iff_left fun hnew => by omega
      refine ⟨?_, ?_, ?_, hw.bytes⟩
      · refine hw.file.trans (timeline_congr (fun k hk => ?_) hsame).symm
        have hlen := h.window.head
        rw [getElem?_append_left (by omega)]
      · rw [hw.captured]
        exact (countBetween_congr fun k hk => by simp only [hsame k hk]).symm
      · rw [hw.silence]
        exact (countBetween_congr fun k hk => by simp only [hsame k hk]).symm

theorem anchor {metadata : RecorderFrameMetadata} (hstamp : s.Stamped (.anchor metadata))
    (hstep : s.step tap disk (.anchor metadata) = some t) : PcmSound tap t := by
  simp only [ProgramPcm.step, anchorAt] at hstep
  cases hanchor : s.capture.anchor with
  | some earlier =>
    rw [hanchor, isSome_some, if_pos rfl] at hstep
    cases hstep
    exact h
  | none =>
    rw [hanchor, isSome_none, if_neg Bool.false_ne_true] at hstep
    cases hclock : metadata.audioClock with
    | none =>
      rw [hclock] at hstep
      cases hstep
    | some stamp =>
      rw [hclock] at hstep
      dsimp only at hstep
      split_ifs at hstep with hrate
      cases hstep
      obtain ⟨-, hfile, hcap, hsilence, hbytes, hlost⟩ := h.idle hanchor
      have hpos : stamp.samplePosition ≤ s.delivered.length := by
        rw [← h.window.count]
        simpa [ProgramPcm.Stamped, hclock] using hstamp
      obtain ⟨hwin, hhead, hreader⟩ := h.window.beginReadAt hpos
      refine ⟨hwin, ?_, h.pending, h.inserted, by simp, ?_⟩
      · intro k hk
        rw [hhead]
        exact (h.lost k hk).trans_le (le_max_left _ _)
      · intro position index hsome
        cases hsome
        refine ⟨_, hreader, le_refl _, ?_, ?_, fun _ => ⟨?_, ?_, ?_, ?_⟩⟩
        · rw [hhead]
          exact le_max_right _ _
        · intro k hread hk
          rw [hhead] at hk
          exact hlost k (by omega)
        · rw [timeline, Nat.sub_self]
          exact hfile
        · rw [countBetween, Nat.sub_self]
          exact hcap
        · rw [countBetween, Nat.sub_self]
          exact hsilence
        · rw [hbytes]
          exact Nat.zero_le _

theorem pump (hstep : s.step tap disk .pump = some t) : PcmSound tap t := by
  simp only [ProgramPcm.step] at hstep
  cases hpump : s.capture.pump tap disk s.ring with
  | error error =>
    rw [hpump] at hstep
    cases hstep
  | ok result =>
    obtain ⟨capture, ring⟩ := result
    rw [hpump] at hstep
    cases hstep
    by_cases hskip : s.capture.anchor = none ∨ s.capture.truncated = true
    · rw [pump, if_pos hskip] at hpump
      cases hpump
      exact h
    obtain ⟨hanchor, htrunc⟩ := not_or.mp hskip
    have hopen := Bool.eq_false_of_not_eq_true htrunc
    obtain ⟨⟨position, index⟩, hsome⟩ := ne_none_iff_exists'.mp hanchor
    obtain ⟨reader, hreader, hpos, hle, hlost, hwrit⟩ := h.anchored position index hsome
    have hw := hwrit hopen
    obtain ⟨drained, htaken, hwin, hhead, hcur⟩ := h.window.takeAvailable hreader
    obtain ⟨hsetup, hring⟩ := pump_setup hpump hanchor hopen h.pending
    obtain ⟨hsame, hins, hpend⟩ :
        capture.anchor = s.capture.anchor ∧
          capture.driftInsertedFrames = s.capture.driftInsertedFrames ∧
          capture.pendingDropFrames = s.capture.pendingDropFrames := by
      simpa [setup] using hsetup
    obtain rfl : ring = drained := by rw [hring, htaken]
    have hlen := h.window.head
    refine ⟨hwin, ?_, hpend.trans h.pending, hins.trans h.inserted, ?_, ?_⟩
    · intro k hk
      rw [hhead]
      exact (h.lost k hk).trans_le hlen
    · intro hnone
      exact absurd (hsame.symm.trans hnone) hanchor
    · intro position' index' hsome'
      rw [hsame, hsome] at hsome'
      cases hsome'
      refine ⟨s.delivered.length, hcur, by omega, hhead.ge, ?_, ?_⟩
      · intro k hread hk
        rw [hhead] at hk
        omega
      · intro hwhole
        obtain ⟨rfl, -, hbytes⟩ := pump_ok hpump hanchor hwhole h.pending hw.bytes
        have hret : ∀ k, s.ring.headFrame ≤ k → k ∉ s.discarded :=
          fun k hk hmem => absurd (h.lost k hmem) (not_lt.mpr hk)
        have hgap : countBetween (fun k => decide (k ∈ s.discarded)) reader
            s.ring.headFrame = s.ring.headFrame - reader :=
          countBetween_of_all
            fun k hread hk => decide_eq_true (hlost k hread hk)
        have hgap' := countBetween_not (fun k => decide (k ∈ s.discarded)) reader s.ring.headFrame
        have hrest : countBetween (fun k => !decide (k ∈ s.discarded))
            s.ring.headFrame s.delivered.length = s.delivered.length - s.ring.headFrame :=
          countBetween_of_all fun k hk _ => by simp [hret k hk]
        have hrest' := countBetween_not (fun k => decide (k ∈ s.discarded)) s.ring.headFrame
          s.delivered.length
        have hdrain := h.window.retained
        rw [h.window.count, h.window.samples] at hdrain
        rw [htaken] at hbytes ⊢
        refine ⟨?_, ?_, ?_, hbytes⟩
        · simp only [pumped, wrote]
          rw [hw.file, timeline_split hpos (hle.trans hlen), timeline_split hle hlen,
            timeline_of_discarded hlost, timeline_of_retained hret, append_assoc]
        · simp only [pumped, wrote]
          rw [hw.captured, countBetween_split hpos (hle.trans hlen), countBetween_split hle hlen]
          omega
        · simp only [pumped, wrote]
          rw [hw.silence, countBetween_split hpos (hle.trans hlen), countBetween_split hle hlen]
          omega

theorem step {label : PcmLabel} (hstamp : s.Stamped label)
    (hstep : s.step tap disk label = some t) : PcmSound tap t := by
  cases label with
  | push samples channelCount => exact h.push hstep
  | anchor metadata => exact h.anchor hstamp hstep
  | pump => exact h.pump hstep

end

theorem of_reachable (h : (ProgramPcm.machine tap disk).ReachableBy ProgramPcm.Stamped s) :
    PcmSound tap s := by
  refine h.invariant ?_ fun _ _ _ hs hstamp hstep => hs.step hstamp hstep
  rintro _ rfl
  exact new tap

end PcmSound

/-- The ring is a window that ends at the last delivered frame, and the file is
the timeline from the anchor to the reader, silent exactly at the frames that
the ring discarded. -/
theorem pcm_timeline {tap : ProgramAudioTap} {disk : AudioDisk} {s : ProgramPcm}
    (h : (ProgramPcm.machine tap disk).ReachableBy ProgramPcm.Stamped s) :
    (s.ring.headFrame + s.ring.samples.length / tap.channels = s.ring.deliveredFrames ∧
      tap.channels ∣ s.ring.samples.length ∧
      s.ring.samples.length ≤ tap.capacitySamples) ∧
    s.ring.deliveredFrames = s.delivered.length ∧
    ∀ position index, s.capture.anchor = some (position, index) →
      s.capture.truncated = false →
      ∃ reader, s.ring.readerFrame = some reader ∧ position ≤ reader ∧
        reader ≤ s.ring.deliveredFrames ∧
        s.capture.file = timeline tap s.delivered s.discarded position reader ∧
        s.capture.totalFileFrames = reader - position ∧
        s.capture.capturedFrames =
          countBetween (fun k => !decide (k ∈ s.discarded)) position reader ∧
        s.capture.silenceGapFrames =
          countBetween (fun k => decide (k ∈ s.discarded)) position reader := by
  have hsound := PcmSound.of_reachable h
  refine ⟨⟨hsound.window.retained, hsound.window.dvd_length,
    hsound.window.bounded⟩, hsound.window.count, ?_⟩
  intro position index hanchor hwhole
  obtain ⟨reader, hreader, hposition, hle, -, hwritten⟩ := hsound.anchored position index hanchor
  have hw := hwritten hwhole
  have htotal := countBetween_not (fun k => decide (k ∈ s.discarded)) position reader
  refine ⟨reader, hreader, hposition, ?_, hw.file, ?_, hw.captured, hw.silence⟩
  · rw [hsound.window.count]
    exact hle.trans hsound.window.head
  · rw [totalFileFrames, hw.captured, hw.silence, hsound.inserted]
    exact htotal

def sampleTap : ProgramAudioTap where
  sampleRate := 48000
  channels := 1
  capacitySamples := 2
  channels_pos := by decide
  channels_le := by decide
  capacity := by decide

/-- The first frame is stamped before anything was delivered, and three frames
overflow the ring before the first pump. -/
def samplePcmLabels : List PcmLabel :=
  [.anchor ⟨0, 0, 0, 0, false, false, false, some ⟨0, 48000, 1⟩⟩,
    .push [F32.one, F32.half, F32.one] 1, .pump, .push [F32.half] 1, .pump]

theorem pcm_timeline_sampleTap :
    ∃ s, (ProgramPcm.machine sampleTap fun _ _ => .ok ()).ReachableBy ProgramPcm.Stamped s ∧
      s.capture.file = [F32.zero, F32.half, F32.one, F32.half] ∧
      s.capture.file = timeline sampleTap s.delivered s.discarded 0 4 := by
  have hends : (((ProgramPcm.machine sampleTap fun _ _ => .ok ()).restrict
      ProgramPcm.Stamped).exec .new samplePcmLabels).map
        (fun s => (s.capture.file, s.capture.anchor, s.capture.truncated, s.ring.readerFrame)) =
      some ([F32.zero, F32.half, F32.one, F32.half], some (0, 0), false, some 4) := by
    decide +kernel
  obtain ⟨s, hrun, hs⟩ := map_eq_some_iff.mp hends
  obtain ⟨hfile, hanchor, hwhole, hreader⟩ : s.capture.file = _ ∧
      s.capture.anchor = some (0, 0) ∧ s.capture.truncated = false ∧
        s.ring.readerFrame = some 4 := by
    simpa using hs
  have hstart : ((ProgramPcm.machine sampleTap fun _ _ => .ok ()).restrict
      ProgramPcm.Stamped).start .new := rfl
  have hreach := Machine.ReachableBy.of_restrict (Machine.reachable_of_exec hstart hrun)
  obtain ⟨-, -, htimeline⟩ := pcm_timeline hreach
  obtain ⟨reader, hreader', -, -, htotal, -⟩ := htimeline 0 0 hanchor hwhole
  rw [hreader] at hreader'
  cases hreader'
  exact ⟨s, hreach, hfile, htotal⟩

end CollideOScope.Recorder
