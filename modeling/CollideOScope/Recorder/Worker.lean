import CollideOScope.Recorder.Metadata
import CollideOScope.Support.Checks
import CollideOScope.Support.SampleHold
import CollideOScope.Support.Words

/-!
# The recorder worker

The worker turns the frames that it receives into a constant frame rate: it
repeats the last frame over a gap in the capture indices, before a late frame
and once more up to the finish index.  Frames with a wrong length, with
metadata out of order or after too long a gap are refused.

The frames handed to the sink are the sample and hold of the accepted frames.
-/

namespace CollideOScope.Recorder

open Nat Checks List Option

def recorderFramePoolCapacity : ℕ := 4

def recorderFrameQueueCapacity : ℕ := 2

def maxDuplicationGapFrames : ℕ := 2400

structure FrameBuffer where
  slot : ℕ
  bytes : Bytes
  deriving DecidableEq

structure RecorderWorkItem where
  pixels : FrameBuffer
  metadata : RecorderFrameMetadata
  deriving DecidableEq

/-- The locals of the encode loop, its counters, and the frames that the sink
has accepted. -/
structure EncodeState where
  lastFrame : Option FrameBuffer
  (firstMetadata lastMetadata : Option RecorderFrameMetadata)
  (encoded duplicated rejectedMetadata : ℕ)
  written : List Bytes

def EncodeState.new : EncodeState := ⟨none, none, none, 0, 0, 0, []⟩

/-- The answer of `write_frame` to a frame after the given ones. -/
abbrev VideoSink := List Bytes → Bytes → Except String Unit

/-- The frames missing between the last accepted frame and the next. -/
def gapBefore (previous next : RecorderFrameMetadata) : ℕ :=
  next.captureIndex - previous.captureIndex - 1

namespace EncodeState

variable (sink : VideoSink)

/-- `sink.write_frame`. -/
def writeFrame (s : EncodeState) (pixels : Bytes) : Except String EncodeState :=
  do
    sink s.written pixels
    .ok { s with written := s.written ++ [pixels] }

/-- The loop that repeats the last frame over a gap. -/
def writeDuplicates (last : Bytes) : ℕ → EncodeState → Except String EncodeState
  | 0, s => .ok s
  | gap + 1, s => do
    let s ← s.writeFrame sink last
    writeDuplicates last gap { s with duplicated := s.duplicated + 1, encoded := s.encoded + 1 }

def reject (s : EncodeState) (item : RecorderWorkItem) : EncodeState × Option FrameBuffer :=
  ({ s with rejectedMetadata := s.rejectedMetadata + 1 }, some item.pixels)

def writeItem (s : EncodeState) (item : RecorderWorkItem) :
    Except String (EncodeState × Option FrameBuffer) := do
  let s ← s.writeFrame sink item.pixels.bytes
  .ok ({ s with
      encoded := s.encoded + 1
      firstMetadata := s.firstMetadata <|> some item.metadata
      lastMetadata := some item.metadata
      lastFrame := some item.pixels }, s.lastFrame)

/-- The encode loop on a received item, and the buffer that it gives back. -/
def receiveItem (frameBytes : ℕ) (s : EncodeState) (item : RecorderWorkItem) :
    Except String (EncodeState × Option FrameBuffer) :=
  if item.pixels.bytes.length ≠ frameBytes ∨
      ¬metadataFollows s.lastMetadata item.metadata then
    .ok (s.reject item)
  else
    match s.lastFrame, s.lastMetadata with
    | some last, some previous =>
      if maxDuplicationGapFrames < gapBefore previous item.metadata then .ok (s.reject item)
      else do
        let s ← writeDuplicates sink last.bytes
          (gapBefore previous item.metadata) s
        s.writeItem sink item
    | _, _ => s.writeItem sink item

/-- The repetitions of the last frame up to the finish index. -/
def fillTo (s : EncodeState) (requested : ℕ) : Except String EncodeState :=
  match s.lastFrame, s.lastMetadata with
  | some last, some previous =>
    if requested < previous.captureIndex then
      .error (s!"recording finish index {requested} predates last accepted "
        ++ s!"frame {previous.captureIndex}")
    else if maxDuplicationGapFrames < requested - previous.captureIndex then
      .error (s!"recording finish gap {requested - previous.captureIndex} "
        ++ s!"exceeds {maxDuplicationGapFrames} frames")
    else writeDuplicates sink last.bytes (requested - previous.captureIndex) s
  | _, _ => .ok s

/-- What follows the loop, up to the check that a frame was accepted. -/
def finishTimeline (s : EncodeState) (requested : ℕ) :
    Except String EncodeState := do
  let s ← s.fillTo sink requested
  if s.firstMetadata = none then .error "recording ended before any frame was accepted"
  else .ok s

end EncodeState

/-- What one pass of the encode loop meets: an item, an empty queue, or the
cancel flag.  `audio` is the outcome of the audio calls of the pass. -/
inductive Received where
  | item (item : RecorderWorkItem) (audio : Except String Unit)
  | timeout (audio : Except String Unit)
  | cancelled

def encodePass (frameBytes : ℕ) (sink : VideoSink) (s : EncodeState) :
    Received → Except String EncodeState
  | .item item audio => do
    let (s, _) ← s.receiveItem sink frameBytes item
    audio
    .ok s
  | .timeout audio => do
    audio
    .ok s
  | .cancelled => .error "recording cancelled"

/-- The encode loop over the given passes, then the finish step. -/
def runEncode (frameBytes : ℕ) (sink : VideoSink) (passes : List Received)
    (finishIndex : ℕ) : Except String EncodeState := do
  let s ← passes.foldlM (encodePass frameBytes sink) EncodeState.new
  s.finishTimeline sink finishIndex

/-- The loop writes an item of the frame length whose metadata follow those of
the last accepted one after at most the longest gap. -/
def Accepts (frameBytes : ℕ) (last : Option RecorderFrameMetadata)
    (item : RecorderWorkItem) : Prop :=
  item.pixels.bytes.length = frameBytes ∧ metadataFollows last item.metadata ∧
    ∀ previous ∈ last, gapBefore previous item.metadata ≤ maxDuplicationGapFrames

instance (frameBytes : ℕ) (last : Option RecorderFrameMetadata)
    (item : RecorderWorkItem) : Decidable (Accepts frameBytes last item) :=
  inferInstanceAs (Decidable (_ ∧ _ ∧ _))

def acceptedItems (frameBytes : ℕ) : Option RecorderFrameMetadata →
    List Received → List RecorderWorkItem
  | _, [] => []
  | last, .item item _ :: passes =>
    if Accepts frameBytes last item then
      item :: acceptedItems frameBytes (some item.metadata) passes
    else acceptedItems frameBytes last passes
  | last, .timeout _ :: passes => acceptedItems frameBytes last passes
  | last, .cancelled :: passes => acceptedItems frameBytes last passes

def samplesOf (accepted : List RecorderWorkItem) : List (ℕ × Bytes) :=
  accepted.map fun item => (item.metadata.captureIndex, item.pixels.bytes)

namespace EncodeState

variable {sink : VideoSink} {frameBytes : ℕ} {s t : EncodeState}
variable {item : RecorderWorkItem} {back : Option FrameBuffer}

theorem writeDuplicates_ok {last : Bytes} {gap : ℕ} (h : writeDuplicates sink last gap s = .ok t) :
    t = { s with
      written := s.written ++ replicate gap last
      duplicated := s.duplicated + gap
      encoded := s.encoded + gap } := by
  induction gap generalizing s with
  | zero =>
    cases h
    simp
  | succ gap ih =>
    obtain ⟨middle, hwrite, hrest⟩ := bind_ok.mp h
    obtain ⟨-, -, hmid⟩ := bind_ok.mp hwrite
    cases hmid
    rw [ih hrest]
    simp [replicate_succ, add_assoc, add_comm 1 gap]

theorem writeItem_ok (h : s.writeItem sink item = .ok (t, back)) :
    back = s.lastFrame ∧
      t = { s with
        written := s.written ++ [item.pixels.bytes]
        encoded := s.encoded + 1
        firstMetadata := s.firstMetadata <|> some item.metadata
        lastMetadata := some item.metadata
        lastFrame := some item.pixels } := by
  obtain ⟨middle, hwrite, hrest⟩ := bind_ok.mp h
  obtain ⟨-, -, hmid⟩ := bind_ok.mp hwrite
  cases hmid
  cases hrest
  exact ⟨rfl, rfl⟩

def Paired (s : EncodeState) : Prop := s.lastFrame = none ↔ s.lastMetadata = none

theorem receiveItem_of_not_accepts (hpaired : s.Paired)
    (h : ¬Accepts frameBytes s.lastMetadata item) :
    s.receiveItem sink frameBytes item = .ok (s.reject item) := by
  unfold receiveItem
  split_ifs with hinv
  · rfl
  · rw [not_or, not_not, not_not] at hinv
    cases hlast : s.lastMetadata with
    | none =>
      rw [hlast] at h hinv
      exact absurd ⟨hinv.1, hinv.2, by simp⟩ h
    | some previous =>
      cases hframe : s.lastFrame with
      | none =>
        have := hpaired.mp hframe
        rw [hlast] at this
        cases this
      | some last =>
        have hgap : maxDuplicationGapFrames < gapBefore previous item.metadata := by
          by_contra hle
          rw [hlast] at h hinv
          refine h ⟨hinv.1, hinv.2, ?_⟩
          intro other hother
          cases hother
          exact Nat.le_of_not_lt hle
        simp only [if_pos hgap]

theorem receiveItem_first (hpaired : s.Paired)
    (hnone : s.lastMetadata = none) (hacc : Accepts frameBytes s.lastMetadata item)
    (h : s.receiveItem sink frameBytes item = .ok (t, back)) :
    s.writeItem sink item = .ok (t, back) := by
  unfold receiveItem at h
  rw [if_neg (by simp [hacc.1, hacc.2.1]), hpaired.mpr hnone] at h
  exact h

theorem receiveItem_later {last : FrameBuffer}
    {previous : RecorderFrameMetadata} (hframe : s.lastFrame = some last)
    (hlast : s.lastMetadata = some previous) (hacc : Accepts frameBytes s.lastMetadata item)
    (h : s.receiveItem sink frameBytes item = .ok (t, back)) :
    ∃ middle, writeDuplicates sink last.bytes (gapBefore previous item.metadata) s = .ok middle ∧
      middle.writeItem sink item = .ok (t, back) := by
  unfold receiveItem at h
  rw [if_neg (by simp [hacc.1, hacc.2.1]), hframe, hlast] at h
  have hgap := hacc.2.2 previous hlast
  simp only [if_neg (not_lt.mpr hgap)] at h
  exact bind_ok.mp h

theorem receiveItem_ok (hpaired : s.Paired)
    (h : s.receiveItem sink frameBytes item = .ok (t, back)) :
    (¬Accepts frameBytes s.lastMetadata item ∧ t = (s.reject item).1 ∧ back = some item.pixels) ∨
    (Accepts frameBytes s.lastMetadata item ∧ back = s.lastFrame ∧
      t.lastFrame = some item.pixels ∧
      t.lastMetadata = some item.metadata ∧
      ∃ repeated, t.written = s.written ++ (repeated ++ [item.pixels.bytes])) := by
  by_cases hacc : Accepts frameBytes s.lastMetadata item
  · refine .inr ⟨hacc, ?_⟩
    cases hlast : s.lastMetadata with
    | none =>
      obtain ⟨rfl, rfl⟩ := writeItem_ok (receiveItem_first hpaired hlast hacc h)
      exact ⟨rfl, rfl, rfl, [], rfl⟩
    | some previous =>
      obtain ⟨last, hframe⟩ : ∃ last, s.lastFrame = some last := by
        apply ne_none_iff_exists'.mp
        intro hnone
        have hmetadata := hpaired.mp hnone
        rw [hlast] at hmetadata
        cases hmetadata
      obtain ⟨middle, hgap, hwrite⟩ := receiveItem_later hframe hlast hacc h
      obtain rfl := writeDuplicates_ok hgap
      obtain ⟨rfl, rfl⟩ := writeItem_ok hwrite
      exact ⟨rfl, rfl, rfl, _, append_assoc _ _ _⟩
  · rw [receiveItem_of_not_accepts hpaired hacc] at h
    cases h
    exact .inl ⟨hacc, rfl, rfl⟩

end EncodeState

structure Encoded (accepted : List RecorderWorkItem) (s : EncodeState) : Prop where
  first : s.firstMetadata = accepted.head?.map (·.metadata)
  last : s.lastMetadata = accepted.getLast?.map (·.metadata)
  frame : s.lastFrame = accepted.getLast?.map (·.pixels)
  count : s.encoded = accepted.length + s.duplicated
  length : s.encoded = s.written.length
  empty : accepted = [] → s.written = []
  timeline : ∀ first last, s.firstMetadata = some first →
    s.lastMetadata = some last →
      first.captureIndex ≤ last.captureIndex ∧
        s.written.map some = resample (samplesOf accepted) first.captureIndex last.captureIndex

namespace Encoded

variable {sink : VideoSink} {frameBytes : ℕ} {s t : EncodeState}
variable {accepted : List RecorderWorkItem} {item : RecorderWorkItem}
variable {back : Option FrameBuffer}

theorem new : Encoded [] EncodeState.new where
  first := rfl
  last := rfl
  frame := rfl
  count := rfl
  length := rfl
  empty _ := rfl
  timeline first last hfst _ := by cases hfst

open EncodeState

theorem paired (h : Encoded accepted s) : s.Paired := by
  rw [Paired, h.frame, h.last]
  cases accepted.getLast? with
  | none => exact iff_of_true rfl rfl
  | some newest => exact iff_of_false (by simp) (by simp)

theorem reject (h : Encoded accepted s) (item : RecorderWorkItem) :
    Encoded accepted (s.reject item).1 :=
  ⟨h.first, h.last, h.frame, h.count, h.length, h.empty, h.timeline⟩

theorem samplesOf_append (accepted : List RecorderWorkItem) (item : RecorderWorkItem) :
    samplesOf (accepted ++ [item]) = samplesOf accepted ++
      [(item.metadata.captureIndex, item.pixels.bytes)] := by
  simp [samplesOf]

variable {previous : RecorderFrameMetadata} (h : Encoded accepted s)
include h

theorem newest (hlast : s.lastMetadata = some previous) :
    ∃ earlier item, accepted = earlier ++ [item] ∧
      item.metadata = previous ∧ s.lastFrame = some item.pixels := by
  rw [h.last, map_eq_some_iff] at hlast
  obtain ⟨item, hitem, rfl⟩ := hlast
  obtain ⟨earlier, rfl⟩ := getLast?_eq_some_iff.mp hitem
  refine ⟨earlier, item, rfl, rfl, ?_⟩
  rw [h.frame, getLast?_concat, map_some]

theorem repeated {first : RecorderFrameMetadata} {last : FrameBuffer}
    (hfst : s.firstMetadata = some first) (hlast : s.lastMetadata = some previous)
    (hframe : s.lastFrame = some last) (gap : ℕ) :
    (s.written ++ replicate gap last.bytes).map some =
      resample (samplesOf accepted) first.captureIndex (previous.captureIndex + gap) := by
  obtain ⟨hle, hwrit⟩ := h.timeline first previous hfst hlast
  obtain ⟨earlier, newest, rfl, rfl, hpixels⟩ := h.newest hlast
  rw [hframe] at hpixels
  cases hpixels
  rw [samplesOf_append] at hwrit ⊢
  rw [map_append, hwrit, map_replicate,
    resample_hold (Nat.le_succ_of_le hle) (Nat.le_add_right _ gap), Nat.add_sub_cancel_left]

theorem receiveItem (hacc : Accepts frameBytes s.lastMetadata item)
    (hrecv : s.receiveItem sink frameBytes item = .ok (t, back)) :
    Encoded (accepted ++ [item]) t ∧ back = s.lastFrame := by
  cases hlast : s.lastMetadata with
  | none =>
    have hwrite := receiveItem_first h.paired hlast hacc hrecv
    obtain ⟨rfl, rfl⟩ := writeItem_ok hwrite
    have hemp : accepted = [] := by
      have hnone := h.last.symm.trans hlast
      rwa [map_eq_none_iff, getLast?_eq_none_iff] at hnone
    subst hemp
    have hcnt := h.count
    have hlen := h.length
    have hwrit := h.empty rfl
    rw [hwrit, length_nil] at hlen
    rw [length_nil] at hcnt
    refine ⟨⟨?_, rfl, rfl, ?_, ?_, by simp, ?_⟩, rfl⟩
    · rw [h.first]
      rfl
    · simp only [nil_append, length_singleton]
      omega
    · simp only [hwrit, nil_append, length_singleton]
      omega
    · intro first last hfst hsame
      rw [h.first] at hfst
      cases hfst
      cases hsame
      refine ⟨le_refl _, ?_⟩
      simp [hwrit, samplesOf, resample, heldAt]
  | some previous =>
    obtain ⟨earlier, newest, rfl, rfl, hpixels⟩ := h.newest hlast
    obtain ⟨middle, hgap, hwrite⟩ := receiveItem_later hpixels hlast hacc hrecv
    obtain rfl := writeDuplicates_ok hgap
    obtain ⟨rfl, rfl⟩ := writeItem_ok hwrite
    have hlater := captureIndex_lt_of_follows
      (hlast ▸ hacc.2.1 : metadataFollows (some newest.metadata) item.metadata)
    obtain ⟨first, hfst⟩ : ∃ first, s.firstMetadata = some first := by
      rw [h.first]
      cases earlier with
      | nil | cons oldest rest => exact ⟨_, rfl⟩
    have hle := (h.timeline first _ hfst hlast).1
    have hgap : newest.metadata.captureIndex +
        gapBefore newest.metadata item.metadata + 1 = item.metadata.captureIndex := by
      unfold gapBefore
      omega
    have hcnt := h.count
    have hlen := h.length
    refine ⟨⟨?_, ?_, ?_, ?_, ?_, by simp, ?_⟩, rfl⟩
    · simp only [h.first]
      cases earlier with
      | nil | cons oldest rest => rfl
    · rw [getLast?_concat, map_some]
    · rw [getLast?_concat, map_some]
    · simp only [length_append, length_singleton] at hcnt ⊢
      omega
    · simp only [length_append, length_singleton, length_replicate]
      omega
    · intro first' last' hfirst' hlast'
      cases hlast'
      simp only [hfst] at hfirst'
      cases hfirst'
      refine ⟨by omega, ?_⟩
      rw [map_append, h.repeated hfst hlast hpixels, samplesOf_append (earlier ++ [newest]),
        resample_append (by omega) hgap, map_singleton]

theorem encodePass {passes : List Received}
    (hrun : passes.foldlM (Recorder.encodePass frameBytes sink) s = .ok t) :
    Encoded (accepted ++ acceptedItems frameBytes s.lastMetadata passes) t := by
  induction passes generalizing s accepted with
  | nil =>
    cases hrun
    rw [acceptedItems, append_nil]
    exact h
  | cons pass passes ih =>
    obtain ⟨middle, hpass, hrest⟩ := bind_ok.mp hrun
    cases pass with
    | item item audio =>
      obtain ⟨⟨next, back⟩, hrecv, haudio⟩ := bind_ok.mp hpass
      obtain ⟨-, -, hmid⟩ := bind_ok.mp haudio
      obtain rfl := Except.ok.inj hmid
      rw [acceptedItems]
      split_ifs with hacc
      · obtain ⟨hnext, -⟩ := h.receiveItem hacc hrecv
        have hlast : next.lastMetadata = some item.metadata := by
          rw [hnext.last, getLast?_concat, map_some]
        rw [← hlast, append_cons]
        exact ih hnext hrest
      · rw [receiveItem_of_not_accepts h.paired hacc] at hrecv
        cases hrecv
        have hkept := ih (h.reject item) hrest
        exact hkept
    | timeout audio =>
      obtain ⟨-, -, hmid⟩ := bind_ok.mp hpass
      cases hmid
      exact ih h hrest
    | cancelled => cases hpass

theorem finishTimeline {requested : ℕ} (hfin : s.finishTimeline sink requested = .ok t) :
    ∃ first, accepted.head? = some first ∧
      first.metadata.captureIndex ≤ requested ∧
      t.written.map some = resample (samplesOf accepted) first.metadata.captureIndex requested ∧
      t.encoded = t.written.length ∧
      t.encoded = accepted.length + t.duplicated := by
  obtain ⟨middle, hfill, hcheck⟩ := bind_ok.mp hfin
  split_ifs at hcheck with hnone
  cases hcheck
  cases hlast : s.lastMetadata with
  | none =>
    rw [fillTo, h.paired.mpr hlast] at hfill
    cases hfill
    rw [h.last, map_eq_none_iff, getLast?_eq_none_iff] at hlast
    rw [h.first, hlast] at hnone
    exact absurd rfl hnone
  | some previous =>
    obtain ⟨earlier, newest, rfl, rfl, hpixels⟩ := h.newest hlast
    rw [fillTo, hpixels, hlast] at hfill
    dsimp only at hfill
    split_ifs at hfill with hearly hgap
    obtain rfl := writeDuplicates_ok hfill
    obtain ⟨first, hfst⟩ := ne_none_iff_exists'.mp hnone
    have hhead := h.first.symm.trans hfst
    obtain ⟨oldest, holdest, rfl⟩ := map_eq_some_iff.mp hhead
    have hle := (h.timeline _ _ hfst hlast).1
    have hwrit := h.repeated hfst hlast hpixels (requested - newest.metadata.captureIndex)
    rw [Nat.add_sub_of_le (Nat.le_of_not_lt hearly)] at hwrit
    have hcnt := h.count
    have hlen := h.length
    refine ⟨oldest, holdest, by omega, hwrit, ?_, ?_⟩
    · simp only [length_append, length_replicate]
      omega
    · simp only
      omega

end Encoded

theorem runEncode_exact {frameBytes : ℕ} {sink : VideoSink} {passes : List Received}
    {finishIndex : ℕ} {s : EncodeState} (h : runEncode frameBytes sink passes finishIndex = .ok s) :
    ∃ first, (acceptedItems frameBytes none passes).head? = some first ∧
      first.metadata.captureIndex ≤ finishIndex ∧
      s.written.map some =
        resample (samplesOf (acceptedItems frameBytes none passes))
          first.metadata.captureIndex finishIndex ∧
      s.encoded = finishIndex - first.metadata.captureIndex + 1 ∧
      s.encoded = (acceptedItems frameBytes none passes).length + s.duplicated := by
  obtain ⟨middle, hloop, hfin⟩ := bind_ok.mp h
  have henc := Encoded.new.encodePass hloop
  rw [nil_append] at henc
  obtain ⟨first, hfst, hle, hwrit, hlen, hcnt⟩ := henc.finishTimeline hfin
  refine ⟨first, hfst, hle, hwrit, ?_, hcnt⟩
  have hspan := congrArg length hwrit
  rw [length_map, resample, length_map, length_range'] at hspan
  omega

end CollideOScope.Recorder
