import CollideOScope.Recorder.Threads

/-!
# What a finished recording contains

The first part states the constant-rate timeline for every sequence of items
that the worker receives, with the conservation of the frame buffers.

The second part is the drain of the queue.  The worker stamps the first idle
pass that sees the finish flag and leaves when a later reading of the clock is a
poll interval after the stamp.  A delay between the two makes it leave at
once, with frames that were submitted before the flag still queued.
-/

namespace CollideOScope.Recorder

open Option Recording List WorkerStage

/-- The sink is handed one frame for each index from the first accepted item to
the finish index, namely the newest accepted picture; a refused item changes
nothing but its counter; and every buffer of the pool is in one place. -/
theorem recording_timeline_exact (frameBytes : ℕ) (sink : VideoSink) :
    (∀ (passes : List Received) (finishIndex : ℕ) (s : EncodeState),
      runEncode frameBytes sink passes finishIndex = .ok s →
      ∃ first, (acceptedItems frameBytes none passes).head? = some first ∧
        first.metadata.captureIndex ≤ finishIndex ∧
        s.written.map some =
          resample (samplesOf (acceptedItems frameBytes none passes))
            first.metadata.captureIndex finishIndex ∧
        s.encoded = finishIndex - first.metadata.captureIndex + 1 ∧
        s.encoded = (acceptedItems frameBytes none passes).length + s.duplicated) ∧
    (∀ (passes : List Received) (s : EncodeState) (item : RecorderWorkItem),
      passes.foldlM (encodePass frameBytes sink) .new = .ok s →
      ¬Accepts frameBytes s.lastMetadata item →
      ∃ t, s.receiveItem sink frameBytes item = .ok (t, some item.pixels) ∧
        t.written = s.written ∧ t.encoded = s.encoded ∧
        t.lastFrame = s.lastFrame ∧ t.firstMetadata = s.firstMetadata ∧
        t.lastMetadata = s.lastMetadata) ∧
    ∀ s : Recording, (machine frameBytes sink).Reachable s →
      (∀ error, s.worker ≠ .failed error) →
      s.slots = Multiset.range recorderFramePoolCapacity ∧
        ((∀ item, s.worker ≠ .handling item) → s.hand = []) := by
  refine ⟨fun passes finishIndex s h => runEncode_exact h, ?_, ?_⟩
  · intro passes s item hrun hrefused
    have hencoded := Encoded.new.encodePass hrun
    exact ⟨_, EncodeState.receiveItem_of_not_accepts hencoded.paired hrefused,
      rfl, rfl, rfl, rfl, rfl⟩
  · intro s hreach hlive
    refine ⟨(Conserved.of_reachable hreach).slots hlive, fun hidle => ?_⟩
    unfold hand
    split
    · rename_i item hworker
      exact absurd hworker (hidle item)
    · rfl

/-- A frame of one byte at a capture index, in a slot of the pool. -/
def sampleItem (slot : ℕ) (value : UInt8) (index : ℕ) : RecorderWorkItem where
  pixels := ⟨slot, [value]⟩
  metadata := ⟨index, index, index, 0, false, false, false, none⟩

/-- The second item is late, the third is out of order. -/
def samplePasses : List Received :=
  [.timeout (.ok ()), .item (sampleItem 0 7 3) (.ok ()),
    .item (sampleItem 1 8 6) (.ok ()), .item (sampleItem 2 9 5) (.ok ())]

theorem recording_timeline_exact_samplePasses :
    ∃ s, runEncode 1 (fun _ _ => .ok ()) samplePasses 7 = .ok s ∧
      s.written = [[7], [7], [7], [8], [8]] ∧ s.encoded = 7 - 3 + 1 := by
  have hruns : (runEncode 1 (fun _ _ => .ok ()) samplePasses 7).isOk = true := by decide +kernel
  obtain ⟨s, hs⟩ := Checks.exists_of_isOk hruns
  obtain ⟨first, hfirst, -, hwritten, hencoded, -⟩ :=
    (recording_timeline_exact 1 fun _ _ => .ok ()).1 samplePasses 7 s hs
  have haccepted : acceptedItems 1 none samplePasses =
      [sampleItem 0 7 3, sampleItem 1 8 6] := by decide +kernel
  rw [haccepted] at hfirst hwritten
  cases hfirst
  refine ⟨s, hs, ?_, hencoded⟩
  have hframes : resample (samplesOf [sampleItem 0 7 3, sampleItem 1 8 6])
      3 7 = [[7], [7], [7], [8], [8]].map some := by decide +kernel
  exact (some_injective Bytes).list_map (hwritten.trans hframes)

/-- A handled item that follows the last accepted one was written last. -/
def HandledItem.Kept (entry : HandledItem) : Prop :=
  metadataFollows entry.previous entry.item.metadata →
    entry.frames.getLast? = some entry.item.pixels.bytes

/-- The worker stands behind an empty receive. -/
def WorkerStage.afterTimeout : WorkerStage → Bool
  | .timedOut => true
  | .stamping => true
  | .checking _ => true
  | _ => false

namespace Recording

/-- No submission is accepted once the flag is set. -/
def Closed (s : Recording) : Prop :=
  s.finishRequested = true → s.phase = .finishing ∨ s.render = .storedFlag

def inHand (s : Recording) : List RecorderWorkItem :=
  match s.worker with
  | .handling item => [item]
  | _ => []

/-- What the drain depends on besides the flag. -/
def core (s : Recording) : List RecorderWorkItem × List RecorderWorkItem ×
    WorkerStage × EncodeState × Option ℕ × List HandledItem :=
  (s.queue, s.accepted, s.worker, s.encoder, s.finishIdleSince, s.handled)

/-- An accepted submission, or an action that leaves the queue alone. -/
inductive RenderEffect (frameBytes : ℕ) (s t : Recording) : Prop
  | accepted (item : RecorderWorkItem)
      (length : item.pixels.bytes.length = frameBytes)
      (phase : s.phase = .recording) (render : s.render = .idle)
      (flag : t.finishRequested = s.finishRequested)
      (phase' : t.phase = s.phase) (render' : t.render = s.render)
      (core : t.core = (s.queue ++ [item], s.accepted ++ [item], s.worker,
        s.encoder, s.finishIdleSince, s.handled))
  | other (closed : s.Closed → t.Closed)
      (flag : s.finishRequested = true → t.finishRequested = true)
      (core : t.core = s.core)

variable {frameBytes : ℕ}

theorem acquire_effect (s : Recording) : RenderEffect frameBytes s s.acquire := by
  unfold acquire
  dsimp only
  split_ifs with hph
  · exact .other id id rfl
  · split
    · exact .other id id rfl
    · exact .other id id rfl

theorem submit_effect (s : Recording) (item : RecorderWorkItem)
    (hrender : s.render = .idle) (hlen : item.pixels.bytes.length = frameBytes) :
    RenderEffect frameBytes s (s.submit item) := by
  unfold submit
  split_ifs with hinv hroom
  · exact .other id id rfl
  · have hph : s.phase = .recording := by
      by_contra hnot
      exact hinv (.inr hnot)
    exact .accepted item hlen hph hrender rfl rfl rfl rfl
  · exact .other id id rfl

theorem renderStep_effect {s t : Recording}
    {label : RecordingLabel} (hstep : s.renderStep frameBytes label = some t) :
    RenderEffect frameBytes s t := by
  cases label with simp only [renderStep] at hstep
  | acquire =>
    split_ifs at hstep with hidle
    cases hstep
    exact s.acquire_effect
  | submit lease bytes metadata =>
    split at hstep
    · rename_i buffer hidle hlease
      split_ifs at hstep with hlen
      cases hstep
      have heff := submit_effect (s.withdraw lease)
        ⟨{ buffer with bytes := bytes }, metadata⟩ hidle hlen
      cases heff with
      | accepted item length phase render flag phase' render' core =>
        exact .accepted item length phase render flag phase' render' core
      | other closed flag core => exact .other closed flag core
    · cases hstep
  | dropLease lease =>
    split at hstep
    · cases hstep
      exact .other id id rfl
    · cases hstep
  | storeFinishIndex index =>
    split_ifs at hstep with hidle
    cases hstep
    refine .other (fun hclosed hflag => ?_) id rfl
    obtain hph | hrender := hclosed hflag
    · exact .inl hph
    · rw [hidle] at hrender
      cases hrender
  | storeFinishFlag =>
    split_ifs at hstep with hstore
    cases hstep
    exact .other (fun _ _ => .inr rfl) (fun _ => rfl) rfl
  | storeFinishPhase =>
    split_ifs at hstep with hstore
    cases hstep
    exact .other (fun _ _ => .inl rfl) id rfl
  | tick nanoseconds | receive | timeout | handle audio | loadFlag audio
  | stamp | readElapsed => cases hstep

/-- The worker is not delayed for a poll interval between the stamp of a pass
and the reading of the clock in the same pass, and no item that follows the
last accepted one comes after too long a gap. -/
def Prompt (s : Recording) : RecordingLabel → Prop
  | .readElapsed => s.worker = .checking true →
      ∀ started ∈ s.finishIdleSince, s.clock - started < recorderPollInterval
  | .handle _ => ∀ item ∈ s.inHand,
      metadataFollows s.encoder.lastMetadata item.metadata →
        ∀ previous ∈ s.encoder.lastMetadata,
          gapBefore previous item.metadata ≤ maxDuplicationGapFrames
  | _ => True

/-- What holds of every prompt run.  A stamp is older than the flag only in a
pass that took it, and otherwise the receive after it found the queue empty. -/
structure Draining (frameBytes : ℕ) (s : Recording) : Prop where
  closed : s.Closed
  paired : s.encoder.Paired
  lengths : ∀ item ∈ s.inHand ++ s.queue, item.pixels.bytes.length = frameBytes
  fifo : (∀ error, s.worker ≠ .failed error) →
    s.accepted = s.handled.map (·.item) ++ s.inHand ++ s.queue
  stamped : s.finishIdleSince ≠ none → s.finishRequested = true
  requested : s.worker = .stamping → s.finishRequested = true
  empty : s.finishIdleSince ≠ none → s.worker.afterTimeout →
    s.worker ≠ .checking true → s.queue = []
  left : s.worker = .left → s.finishRequested = true ∧ s.queue = []
  kept : ∀ entry ∈ s.handled, HandledItem.Kept entry
  written : (∀ error, s.worker ≠ .failed error) → s.encoder.written = s.handled.flatMap (·.frames)

namespace Draining

variable {frameBytes : ℕ} {sink : VideoSink} {s t : Recording}

theorem initial (frameBytes : ℕ) : Draining frameBytes (initial frameBytes) where
  closed h := by cases h
  paired := iff_of_true rfl rfl
  lengths item hitem := by cases hitem
  fifo _ := rfl
  stamped h := absurd rfl h
  requested h := by cases h
  empty h := absurd rfl h
  left h := by cases h
  kept entry hent := by cases hent
  written _ := rfl

theorem render (h : Draining frameBytes s)
    (heff : RenderEffect frameBytes s t) : Draining frameBytes t := by
  cases heff with
  | accepted item length phase render flag phase' render' core =>
    simp only [Recording.core, Prod.mk.injEq] at core
    obtain ⟨hqueue, hacc, hworker, henc, hidle, hhandled⟩ := core
    have hopen : s.finishRequested = false := by
      cases hflag : s.finishRequested with
      | false => rfl
      | true =>
        obtain hph | hrender := h.closed hflag
        · rw [phase] at hph
          cases hph
        · rw [render] at hrender
          cases hrender
    have hclear {p : Prop} (hset : s.finishRequested = true) : p := by
      rw [hopen] at hset
      cases hset
    have hhand : t.inHand = s.inHand := by rw [inHand, inHand, hworker]
    refine ⟨?_, ?_, ?_, ?_, ?_, ?_, ?_, ?_, ?_, ?_⟩
    · exact fun hset => hclear (flag ▸ hset)
    · exact henc ▸ h.paired
    · rw [hhand, hqueue, ← append_assoc]
      intro other hother
      obtain hearl | hnew := mem_append.mp hother
      · exact h.lengths other hearl
      · rw [mem_singleton.mp hnew]
        exact length
    · rw [hworker, hacc, hhandled, hhand, hqueue, ← append_assoc]
      exact fun hlive => by rw [h.fifo hlive]
    · rw [hidle]
      exact fun hstamp => hclear (h.stamped hstamp)
    · rw [hworker]
      exact fun hstage => hclear (h.requested hstage)
    · rw [hidle]
      exact fun hstamp => hclear (h.stamped hstamp)
    · rw [hworker]
      exact fun hleft => hclear (h.left hleft).1
    · rw [hhandled]
      exact h.kept
    · rw [hworker, henc, hhandled]
      exact h.written
  | other closed flag core =>
    simp only [Recording.core, Prod.mk.injEq] at core
    obtain ⟨hqueue, hacc, hworker, henc, hidle, hhandled⟩ := core
    have hhand : t.inHand = s.inHand := by rw [inHand, inHand, hworker]
    refine ⟨closed h.closed, ?_, ?_, ?_, ?_, ?_, ?_, ?_, ?_, ?_⟩
    · exact henc ▸ h.paired
    · rw [hhand, hqueue]
      exact h.lengths
    · rw [hworker, hacc, hhandled, hhand, hqueue]
      exact h.fifo
    · rw [hidle]
      exact fun hstamp => flag (h.stamped hstamp)
    · rw [hworker]
      exact fun hstage => flag (h.requested hstage)
    · rw [hidle, hworker, hqueue]
      exact h.empty
    · rw [hworker, hqueue]
      exact fun hleft => ⟨flag (h.left hleft).1, (h.left hleft).2⟩
    · rw [hhandled]
      exact h.kept
    · rw [hworker, henc, hhandled]
      exact h.written

variable {item : RecorderWorkItem}

section

variable (h : Draining frameBytes s) (hworker : s.worker = .handling item)
  (hgap : metadataFollows s.encoder.lastMetadata item.metadata →
    ∀ previous ∈ s.encoder.lastMetadata, gapBefore previous item.metadata ≤ maxDuplicationGapFrames)
include h hworker hgap

theorem handled {encoder : EncodeState} {back : Option FrameBuffer}
    (hrecv : s.encoder.receiveItem sink frameBytes item = .ok (encoder, back)) :
    encoder.written = s.encoder.written ++ encoder.written.drop s.encoder.written.length ∧
      HandledItem.Kept ⟨item, s.encoder.lastMetadata,
        encoder.written.drop s.encoder.written.length⟩ := by
  have hlen : item.pixels.bytes.length = frameBytes := h.lengths item (by simp [inHand, hworker])
  obtain ⟨href, rfl, -⟩ | ⟨-, -, -, -, repeated, hwrit⟩ := EncodeState.receiveItem_ok h.paired hrecv
  · refine ⟨?_, fun hfol => ?_⟩
    · simp [EncodeState.reject]
    · exact absurd ⟨hlen, hfol, hgap hfol⟩ href
  · rw [hwrit, drop_left]
    refine ⟨rfl, fun _ => ?_⟩
    rw [getLast?_concat]

theorem handleItem (audio : Except String Unit) :
    Draining frameBytes (s.handleItem frameBytes sink item audio) := by
  have hlens : ∀ other ∈ s.queue,
      other.pixels.bytes.length = frameBytes :=
    fun other hother => h.lengths other (mem_append_right _ hother)
  unfold Recording.handleItem
  cases hrecv : s.encoder.receiveItem sink frameBytes item with
  | error error =>
    exact ⟨h.closed, h.paired, hlens, fun hlive => absurd rfl (hlive error), h.stamped, by simp,
      by simp [afterTimeout], by simp, h.kept, fun hlive => absurd rfl (hlive error)⟩
  | ok result =>
    obtain ⟨encoder, back⟩ := result
    obtain ⟨hwrit, hent⟩ := h.handled hworker hgap hrecv
    obtain ⟨hpaired, -⟩ := Conserved.receiveItem_slots h.paired hrecv
    have hkept : ∀ entry ∈ s.handled.concat ⟨item, s.encoder.lastMetadata,
        encoder.written.drop s.encoder.written.length⟩, HandledItem.Kept entry := by
      intro entry hmem
      rw [concat_eq_append] at hmem
      obtain hearl | hnew := mem_append.mp hmem
      · exact h.kept entry hearl
      · rw [mem_singleton.mp hnew]
        exact hent
    cases audio with
    | error error =>
      exact ⟨h.closed, hpaired, hlens,
        fun hlive => absurd rfl (hlive error), by simp, by simp, by simp,
        by simp, hkept, fun hlive => absurd rfl (hlive error)⟩
    | ok value =>
      have hlive : ∀ error, s.worker ≠ .failed error := by simp [hworker]
      refine ⟨h.closed, hpaired, hlens, fun _ => ?_, by simp, by simp,
        by simp, by simp, hkept, fun _ => ?_⟩
      · simp [h.fifo hlive, inHand, hworker]
      · simp only [concat_eq_append, flatMap_append, flatMap_cons, flatMap_nil, append_nil]
        rw [← h.written hlive]
        exact hwrit

end

variable {label : RecordingLabel}

theorem workerStep (h : Draining frameBytes s) (hprompt : s.Prompt label)
    (hstep : s.workerStep frameBytes sink label = some t) :
    Draining frameBytes t := by
  cases label with simp only [Recording.workerStep] at hstep
  | receive =>
    split at hstep
    · rename_i item queue hworker hqueue
      cases hstep
      have hlive : ∀ error, s.worker ≠ .failed error := by simp [hworker]
      refine ⟨h.closed, h.paired, ?_, fun _ => ?_, h.stamped, by simp,
        by simp [afterTimeout], by simp, h.kept,
        fun _ => h.written hlive⟩
      · simpa [inHand, hworker, hqueue] using h.lengths
      · simpa [inHand, hworker, hqueue] using h.fifo hlive
    · cases hstep
  | timeout =>
    split at hstep
    · rename_i hworker hqueue
      cases hstep
      have hlive : ∀ error, s.worker ≠ .failed error := by simp [hworker]
      refine ⟨h.closed, h.paired, by simp [inHand, hqueue], fun _ => ?_, h.stamped, by simp,
        fun _ _ _ => hqueue, by simp, h.kept, fun _ => h.written hlive⟩
      simpa [inHand, hworker, hqueue] using h.fifo hlive
    · cases hstep
  | handle audio =>
    split at hstep
    · rename_i item hworker
      cases hstep
      exact h.handleItem hworker (hprompt item (by simp [inHand, hworker])) audio
    · cases hstep
  | loadFlag audio =>
    split at hstep
    · rename_i error hworker
      cases hstep
      have hlens : ∀ item ∈ s.queue,
          item.pixels.bytes.length = frameBytes :=
        fun item hitem => h.lengths item (mem_append_right _ hitem)
      exact ⟨h.closed, h.paired, hlens,
        fun hlive => absurd rfl (hlive error), h.stamped, by simp,
        by simp [afterTimeout], by simp, h.kept,
        fun hlive => absurd rfl (hlive error)⟩
    · rename_i hworker
      cases hstep
      have hlive : ∀ error, s.worker ≠ .failed error := by simp [hworker]
      have hemp := h.empty
      rw [hworker] at hemp
      have hlens := h.lengths
      have hfifo := h.fifo hlive
      simp only [inHand, hworker, nil_append, append_nil] at hlens hfifo
      by_cases hflag : s.finishRequested = true
      · rw [if_pos hflag]
        refine ⟨h.closed, h.paired, hlens, fun _ => ?_, h.stamped,
          fun _ => hflag, fun hstamp _ _ => hemp hstamp rfl (by simp),
          by simp, h.kept, fun _ => h.written hlive⟩
        simpa [inHand] using hfifo
      · rw [if_neg hflag]
        refine ⟨h.closed, h.paired, hlens, fun _ => ?_, h.stamped,
          by simp, by simp [afterTimeout], by simp, h.kept,
          fun _ => h.written hlive⟩
        simpa [inHand] using hfifo
    · cases hstep
  | stamp =>
    split at hstep
    · rename_i hworker
      cases hstep
      have hlive : ∀ error, s.worker ≠ .failed error := by simp [hworker]
      have hemp := h.empty
      rw [hworker] at hemp
      have hlens := h.lengths
      have hfifo := h.fifo hlive
      simp only [inHand, hworker, nil_append, append_nil] at hlens hfifo
      refine ⟨h.closed, h.paired, hlens, fun _ => ?_, fun _ => h.requested hworker, by simp,
        fun _ _ hnew => ?_, by simp, h.kept, fun _ => h.written hlive⟩
      · simpa [inHand] using hfifo
      · refine hemp (fun hnone => hnew ?_) rfl (by simp)
        simp [hnone]
    · cases hstep
  | readElapsed =>
    split at hstep
    · rename_i fresh started hworker hstart
      cases hstep
      have hlive : ∀ error, s.worker ≠ .failed error := by simp [hworker]
      have hreq := h.stamped (by simp [hstart])
      have hlens := h.lengths
      have hfifo := h.fifo hlive
      simp only [inHand, hworker, nil_append, append_nil] at hlens hfifo
      by_cases helapsed : recorderPollInterval ≤ s.clock - started
      · have hold : s.worker ≠ .checking true := fun hfresh =>
          absurd (hprompt hfresh started hstart) (Nat.not_lt.mpr helapsed)
        have hqueue := h.empty (by simp [hstart]) (by simp [hworker, afterTimeout]) hold
        rw [if_pos helapsed]
        refine ⟨h.closed, h.paired, hlens, fun _ => ?_, h.stamped, by simp,
          by simp [afterTimeout], fun _ => ⟨hreq, hqueue⟩,
          h.kept, fun _ => h.written hlive⟩
        simpa [inHand] using hfifo
      · rw [if_neg helapsed]
        refine ⟨h.closed, h.paired, hlens, fun _ => ?_, h.stamped, by simp,
          by simp [afterTimeout], by simp, h.kept,
          fun _ => h.written hlive⟩
        simpa [inHand] using hfifo
    · cases hstep
  | acquire | submit lease bytes metadata | dropLease lease
  | storeFinishIndex index | storeFinishFlag | storeFinishPhase
  | tick nanoseconds => cases hstep

theorem step (h : Draining frameBytes s) (hprompt : s.Prompt label)
    (hstep : s.step frameBytes sink label = some t) :
    Draining frameBytes t := by
  unfold Recording.step at hstep
  split at hstep
  · cases hstep
    exact ⟨h.closed, h.paired, h.lengths, h.fifo, h.stamped, h.requested,
      h.empty, h.left, h.kept, h.written⟩
  all_goals first
    | exact h.workerStep hprompt hstep
    | exact h.render (renderStep_effect hstep)

theorem of_reachable (h : (machine frameBytes sink).ReachableBy Prompt s) :
    Draining frameBytes s := by
  refine h.invariant ?_ fun _ _ _ hs hprompt hstep => hs.step hprompt hstep
  rintro _ rfl
  exact initial frameBytes

end Draining

end Recording

/-- Every accepted submission has been handled in order, and every one that
follows the last accepted item was written; the sink holds exactly what the
handled items wrote. -/
structure Complete (s : Recording) : Prop where
  drained : s.queue = []
  handled : s.handled.map (·.item) = s.accepted
  kept : ∀ entry ∈ s.handled,
    metadataFollows entry.previous entry.item.metadata →
      entry.frames.getLast? = some entry.item.pixels.bytes
  written : s.encoder.written = s.handled.flatMap (·.frames)

/-- A prompt worker leaves its loop only with every accepted frame written. -/
theorem prompt_worker_drains {frameBytes : ℕ} {sink : VideoSink} {s : Recording}
    (h : (machine frameBytes sink).ReachableBy Prompt s)
    (hleft : s.worker = .left) : Complete s := by
  have hdraining := Draining.of_reachable h
  have hlive : ∀ error, s.worker ≠ .failed error := by simp [hleft]
  obtain ⟨-, hqueue⟩ := hdraining.left hleft
  have hfifo := hdraining.fifo hlive
  simp only [inHand, hleft, hqueue, append_nil] at hfifo
  exact ⟨hqueue, hfifo.symm, hdraining.kept, hdraining.written hlive⟩

/-- The metadata of a frame without an audio clock. -/
def sampleFrameMetadata (index : ℕ) : RecorderFrameMetadata :=
  ⟨index, index, index, 0, false, false, false, none⟩

/-- One frame is written, and the finish is requested over an empty queue. -/
def samplePromptLabels : List RecordingLabel :=
  [.acquire, .submit 0 [7] (sampleFrameMetadata 0), .receive, .handle (.ok ()), .storeFinishIndex 0,
    .storeFinishFlag, .storeFinishPhase, .timeout, .loadFlag (.ok ()), .stamp, .readElapsed,
    .tick 10000000, .timeout, .loadFlag (.ok ()), .stamp, .readElapsed]

instance (s : Recording) : ∀ label, Decidable (s.Prompt label)
  | .acquire => inferInstanceAs (Decidable True)
  | .submit _ _ _ => inferInstanceAs (Decidable True)
  | .dropLease _ => inferInstanceAs (Decidable True)
  | .storeFinishIndex _ => inferInstanceAs (Decidable True)
  | .storeFinishFlag => inferInstanceAs (Decidable True)
  | .storeFinishPhase => inferInstanceAs (Decidable True)
  | .tick _ => inferInstanceAs (Decidable True)
  | .receive => inferInstanceAs (Decidable True)
  | .timeout => inferInstanceAs (Decidable True)
  | .handle _ => inferInstanceAs (Decidable (∀ item ∈ s.inHand,
      metadataFollows s.encoder.lastMetadata item.metadata →
        ∀ previous ∈ s.encoder.lastMetadata,
          gapBefore previous item.metadata ≤ maxDuplicationGapFrames))
  | .loadFlag _ => inferInstanceAs (Decidable True)
  | .stamp => inferInstanceAs (Decidable True)
  | .readElapsed => inferInstanceAs (Decidable (s.worker = .checking true →
      ∀ started ∈ s.finishIdleSince, s.clock - started < recorderPollInterval))

theorem prompt_worker_drains_samplePromptLabels :
    ∃ s, (machine 1 fun _ _ => .ok ()).ReachableBy Prompt s ∧
      s.worker = .left ∧ s.encoder.written = [[7]] ∧ Complete s := by
  have hends : (((machine 1 fun _ _ => .ok ()).restrict Prompt).exec
      (initial 1) samplePromptLabels).map
        (fun s => (s.worker, s.encoder.written)) = some (.left, [[7]]) := by
    decide +kernel
  obtain ⟨s, hrun, hs⟩ := map_eq_some_iff.mp hends
  obtain ⟨hleft, hwritten⟩ := Prod.mk.inj hs
  have hstart : ((machine 1 fun _ _ => .ok ()).restrict Prompt).start (initial 1) := rfl
  have hreach := Machine.ReachableBy.of_restrict (Machine.reachable_of_exec hstart hrun)
  exact ⟨s, hreach, hleft, hwritten, prompt_worker_drains hreach hleft⟩

/-- A second frame is submitted between the timeout of the worker and its look
at the flag, and the worker is delayed for a poll interval after the stamp. -/
def sampleDelayedLabels : List RecordingLabel :=
  [.acquire, .submit 0 [7] (sampleFrameMetadata 0), .receive, .handle (.ok ()), .timeout, .acquire,
    .submit 0 [8] (sampleFrameMetadata 1), .storeFinishIndex 1, .storeFinishFlag, .storeFinishPhase,
    .loadFlag (.ok ()), .stamp, .tick 10000000, .readElapsed]

/-- A delayed worker leaves an accepted frame in the queue. -/
theorem delayed_worker_loses_frame :
    ¬∀ (frameBytes : ℕ) (sink : VideoSink) (s : Recording),
      (machine frameBytes sink).Reachable s → s.worker = .left → Complete s := by
  intro h
  have hends : ((machine 1 fun _ _ => .ok ()).exec (initial 1)
      sampleDelayedLabels).map (fun s => (s.worker, s.queue.length)) = some (.left, 1) := by
    decide +kernel
  obtain ⟨s, hrun, hs⟩ := map_eq_some_iff.mp hends
  obtain ⟨hleft, hqueue⟩ := Prod.mk.inj hs
  have hstart : (machine 1 fun _ _ => .ok ()).start (initial 1) := rfl
  have hcomplete := h 1 (fun _ _ => .ok ()) s (Machine.reachable_of_exec hstart hrun) hleft
  rw [hcomplete.drained] at hqueue
  cases hqueue

end CollideOScope.Recorder
