import CollideOScope.Recorder.Worker
import CollideOScope.Support.Machine
import Mathlib.Algebra.Order.Group.Multiset
import Mathlib.Data.Multiset.Range
import Mathlib.Tactic.Abel

/-!
# The threads of a recording

The render thread leases frame buffers from a pool, submits them to a bounded
queue and requests the finish.  The worker takes items off the queue, and every
time its receive times out it looks at the finish flag and at the clock.  Each
label is one atomic action or one statement of a thread, and the clock may move
between any two of them.
-/

namespace CollideOScope.Recorder

open Multiset

/-- `RECORDER_POLL_INTERVAL` in nanoseconds. -/
def recorderPollInterval : ℕ := 10000000

/-- The phases that the threads pass through while the loop runs. -/
inductive RecorderPhase where
  | recording | finishing
  deriving DecidableEq

/-- The statement of `request_finish` that the render thread executes next. -/
inductive RenderStage where
  | idle | storedIndex | storedFlag
  deriving DecidableEq

/-- Where the worker is in its loop.  `checking` has the stamp of the first
idle pass, and says whether this very pass took it. -/
inductive WorkerStage where
  | receiving
  | handling (item : RecorderWorkItem)
  | timedOut | stamping
  | checking (fresh : Bool)
  | left
  | failed (error : String)
  deriving DecidableEq

structure RecorderCounters where
  attempted : ℕ
  accepted : ℕ
  (droppedNotReady droppedPoolEmpty droppedQueueFull rejectedMetadata : ℕ)

/-- A handled item: the last accepted metadata before it and the frames that
its pass handed to the sink. -/
structure HandledItem where
  item : RecorderWorkItem
  previous : Option RecorderFrameMetadata
  frames : List Bytes

/-- The shared state, the two threads, the clock, and the history of the
accepted submissions and of the handled items. -/
structure Recording where
  phase : RecorderPhase
  finishRequested : Bool
  finishCaptureIndex : ℕ
  (pool leases : List FrameBuffer)
  queue : List RecorderWorkItem
  counters : RecorderCounters
  render : RenderStage
  worker : WorkerStage
  encoder : EncodeState
  finishIdleSince : Option ℕ
  clock : ℕ
  accepted : List RecorderWorkItem
  handled : List HandledItem

inductive RecordingLabel where
  | acquire
  | submit (lease : ℕ) (bytes : Bytes) (metadata : RecorderFrameMetadata)
  | dropLease (lease : ℕ)
  | storeFinishIndex (index : ℕ)
  | storeFinishFlag | storeFinishPhase
  | tick (nanoseconds : ℕ)
  | receive | timeout
  | handle (audio : Except String Unit)
  | loadFlag (audio : Except String Unit)
  | stamp | readElapsed

namespace Recording

/-- The worker has filled the pool and announced that it records. -/
def initial (frameBytes : ℕ) : Recording where
  phase := .recording
  finishRequested := false
  finishCaptureIndex := 0
  pool := (List.range recorderFramePoolCapacity).map
    fun slot => ⟨slot, List.replicate frameBytes 0⟩
  leases := []
  queue := []
  counters := ⟨0, 0, 0, 0, 0, 0⟩
  render := .idle
  worker := .receiving
  encoder := .new
  finishIdleSince := none
  clock := 0
  accepted := []
  handled := []

/-- `try_send` on the channel of the pool; a full channel drops the buffer. -/
def giveBack (pool : List FrameBuffer) (buffer : FrameBuffer) : List FrameBuffer :=
  if pool.length < recorderFramePoolCapacity then pool ++ [buffer] else pool

/-- `try_acquire_frame`. -/
def acquire (s : Recording) : Recording :=
  let s := { s with counters := { s.counters with attempted := s.counters.attempted + 1 } }
  if s.phase ≠ .recording then
    { s with counters := { s.counters with droppedNotReady := s.counters.droppedNotReady + 1 } }
  else
    match s.pool with
    | [] =>
      { s with counters := { s.counters with droppedPoolEmpty := s.counters.droppedPoolEmpty + 1 } }
    | buffer :: pool => { s with pool := pool, leases := s.leases ++ [buffer] }

/-- `try_submit` of a lease that has been taken off the leases. -/
def submit (s : Recording) (item : RecorderWorkItem) : Recording :=
  if ¬item.metadata.validate.isOk ∨ s.phase ≠ .recording then
    { s with
      pool := giveBack s.pool item.pixels
      counters := { s.counters with rejectedMetadata := s.counters.rejectedMetadata + 1 } }
  else if s.queue.length < recorderFrameQueueCapacity then
    { s with
      queue := s.queue ++ [item]
      accepted := s.accepted ++ [item]
      counters := { s.counters with accepted := s.counters.accepted + 1 } }
  else
    { s with
      pool := giveBack s.pool item.pixels
      counters := { s.counters with droppedQueueFull := s.counters.droppedQueueFull + 1 } }

def withdraw (s : Recording) (lease : ℕ) : Recording := { s with leases := s.leases.eraseIdx lease }

variable (frameBytes : ℕ) (sink : VideoSink)

def renderStep (s : Recording) : RecordingLabel → Option Recording
  | .acquire => if s.render = .idle then some s.acquire else none
  | .submit lease bytes metadata =>
    match s.render, s.leases[lease]? with
    | .idle, some buffer =>
      if bytes.length = frameBytes then
        some ((s.withdraw lease).submit ⟨{ buffer with bytes := bytes }, metadata⟩)
      else none
    | _, _ => none
  | .dropLease lease =>
    match s.render, s.leases[lease]? with
    | .idle, some buffer => some { s.withdraw lease with pool := giveBack s.pool buffer }
    | _, _ => none
  | .storeFinishIndex index =>
    if s.render = .idle then some { s with finishCaptureIndex := index, render := .storedIndex }
    else none
  | .storeFinishFlag =>
    if s.render = .storedIndex then some { s with finishRequested := true, render := .storedFlag }
    else none
  | .storeFinishPhase =>
    if s.render = .storedFlag then some { s with phase := .finishing, render := .idle }
    else none
  | _ => none

def handleItem (s : Recording) (item : RecorderWorkItem) (audio : Except String Unit) : Recording :=
  match s.encoder.receiveItem sink frameBytes item with
  | .error error => { s with worker := .failed error }
  | .ok (encoder, back) =>
    let s := { s with
      encoder := encoder
      pool := back.elim s.pool (giveBack s.pool)
      finishIdleSince := none
      handled := s.handled.concat ⟨item, s.encoder.lastMetadata,
        encoder.written.drop s.encoder.written.length⟩ }
    match audio with
    | .error error => { s with worker := .failed error }
    | .ok () => { s with worker := .receiving }

def workerStep (s : Recording) : RecordingLabel → Option Recording
  | .receive =>
    match s.worker, s.queue with
    | .receiving, item :: queue => some { s with queue := queue, worker := .handling item }
    | _, _ => none
  | .timeout =>
    match s.worker, s.queue with
    | .receiving, [] => some { s with worker := .timedOut }
    | _, _ => none
  | .handle audio =>
    match s.worker with
    | .handling item => some (s.handleItem frameBytes sink item audio)
    | _ => none
  | .loadFlag audio =>
    match s.worker, audio with
    | .timedOut, .error error => some { s with worker := .failed error }
    | .timedOut, .ok () =>
      some { s with worker := if s.finishRequested then .stamping else .receiving }
    | _, _ => none
  | .stamp =>
    match s.worker with
    | .stamping =>
      some { s with
        finishIdleSince := s.finishIdleSince <|> some s.clock
        worker := .checking s.finishIdleSince.isNone }
    | _ => none
  | .readElapsed =>
    match s.worker, s.finishIdleSince with
    | .checking _, some started =>
      some { s with
        worker :=
          if recorderPollInterval ≤ s.clock - started then .left
          else .receiving }
    | _, _ => none
  | _ => none

def step (s : Recording) (label : RecordingLabel) : Option Recording :=
  match label with
  | .tick nanoseconds => some { s with clock := s.clock + nanoseconds }
  | .receive => s.workerStep frameBytes sink label
  | .timeout => s.workerStep frameBytes sink label
  | .handle _ => s.workerStep frameBytes sink label
  | .loadFlag _ => s.workerStep frameBytes sink label
  | .stamp => s.workerStep frameBytes sink label
  | .readElapsed => s.workerStep frameBytes sink label
  | _ => s.renderStep frameBytes label

def machine : Machine Recording RecordingLabel where
  start s := s = initial frameBytes
  step := step frameBytes sink

def hand (s : Recording) : List FrameBuffer :=
  match s.worker with
  | .handling item => [item.pixels]
  | _ => []

/-- The slots of the buffers in the pool, in the leases, in the queue, in the
hand of the worker and in `last_frame`. -/
def slots (s : Recording) : Multiset ℕ :=
  (s.pool.map (·.slot) : Multiset ℕ) + (s.leases.map (·.slot) : Multiset ℕ) +
    (s.queue.map (·.pixels.slot) : Multiset ℕ) +
    (s.hand.map (·.slot) : Multiset ℕ) +
    (s.encoder.lastFrame.toList.map (·.slot) : Multiset ℕ)

theorem card_slots (s : Recording) :
    s.slots.card = s.pool.length + s.leases.length + s.queue.length +
      s.hand.length + s.encoder.lastFrame.toList.length := by
  simp [slots, Nat.add_assoc]

/-- What holds of the buffers in every reachable state. -/
structure Conserved (s : Recording) : Prop where
  paired : s.encoder.Paired
  slots : (∀ error, s.worker ≠ .failed error) → s.slots = Multiset.range recorderFramePoolCapacity

theorem giveBack_slots {pool : List FrameBuffer} (buffer : FrameBuffer)
    (h : pool.length < recorderFramePoolCapacity) :
    ((giveBack pool buffer).map (·.slot) : Multiset ℕ) =
      (pool.map (·.slot) : Multiset ℕ) + {buffer.slot} := by
  rw [giveBack, if_pos h, List.map_append, ← coe_add]
  rfl

theorem withdraw_slots {s : Recording} {lease : ℕ} {buffer : FrameBuffer}
    (h : s.leases[lease]? = some buffer) :
    (s.withdraw lease).slots + {buffer.slot} = s.slots := by
  obtain ⟨hlt, rfl⟩ := List.getElem?_eq_some_iff.mp h
  have hperm := (List.getElem_cons_eraseIdx_perm hlt).map (·.slot)
  have hleases : (s.leases.map (·.slot) : Multiset ℕ) =
      ((s.leases.eraseIdx lease).map (·.slot) : Multiset ℕ) + {s.leases[lease].slot} := by
    rw [← coe_eq_coe.mpr hperm, List.map_cons, ← cons_coe, ← singleton_add, add_comm]
  simp only [slots, hand, withdraw, hleases]
  abel

theorem acquire_slots (s : Recording) : s.acquire.slots = s.slots := by
  unfold acquire
  dsimp only
  split_ifs with hph
  · rfl
  · split
    · rfl
    · rename_i buffer pool hpool
      simp only [slots, hand, hpool, List.map_append, List.map_cons,
        List.map_nil, ← Multiset.coe_add, ← Multiset.cons_coe,
        ← Multiset.singleton_add, Multiset.coe_nil, add_zero]
      abel

theorem acquire_kept (s : Recording) :
    s.acquire.worker = s.worker ∧ s.acquire.encoder = s.encoder := by
  unfold acquire
  dsimp only
  split_ifs with hph
  · exact ⟨rfl, rfl⟩
  · split
    · exact ⟨rfl, rfl⟩
    · exact ⟨rfl, rfl⟩

theorem submit_slots (s : Recording) (item : RecorderWorkItem)
    (hroom : s.pool.length < recorderFramePoolCapacity) :
    (s.submit item).slots = s.slots + {item.pixels.slot} := by
  have hback := giveBack_slots item.pixels hroom
  unfold submit
  split_ifs with hinv hqueue
  · simp only [slots, hand, hback]
    abel
  · simp only [slots, hand, List.map_append, List.map_cons, List.map_nil, ← Multiset.coe_add,
      ← Multiset.cons_coe, ← Multiset.singleton_add, Multiset.coe_nil, add_zero]
    abel
  · simp only [slots, hand, hback]
    abel

theorem submit_kept (s : Recording) (item : RecorderWorkItem) :
    (s.submit item).worker = s.worker ∧ (s.submit item).encoder = s.encoder := by
  unfold submit
  split_ifs with hinv hqueue
  · exact ⟨rfl, rfl⟩
  · exact ⟨rfl, rfl⟩
  · exact ⟨rfl, rfl⟩

namespace Conserved

variable {frameBytes : ℕ} {sink : VideoSink} {s t : Recording}

theorem initial (frameBytes : ℕ) : Conserved (initial frameBytes) where
  paired := iff_of_true rfl rfl
  slots _ := by
    simp [Recording.slots, Recording.initial, Recording.hand,
      EncodeState.new, Function.comp_def, Multiset.range]

theorem of_slots (h : Conserved s) (hworker : t.worker = s.worker) (henc : t.encoder = s.encoder)
    (hslots : (∀ error, s.worker ≠ .failed error) → t.slots = s.slots) :
    Conserved t where
  paired := henc ▸ h.paired
  slots hlive := by
    rw [hworker] at hlive
    rw [hslots hlive, h.slots hlive]

theorem room (h : Conserved s) (hlive : ∀ error, s.worker ≠ .failed error) {lease : ℕ}
    {buffer : FrameBuffer} (hlease : s.leases[lease]? = some buffer) :
    s.pool.length < recorderFramePoolCapacity := by
  have hcard := s.card_slots
  rw [h.slots hlive, card_range] at hcard
  obtain ⟨hlt, -⟩ := List.getElem?_eq_some_iff.mp hlease
  omega

variable {label : RecordingLabel}

theorem renderStep (h : Conserved s)
    (hstep : s.renderStep frameBytes label = some t) : Conserved t := by
  cases label with simp only [Recording.renderStep] at hstep
  | acquire =>
    split_ifs at hstep with hidle
    cases hstep
    obtain ⟨hworker, henc⟩ := s.acquire_kept
    exact h.of_slots hworker henc fun _ => s.acquire_slots
  | submit lease bytes metadata =>
    split at hstep
    · rename_i buffer hidle hlease
      split_ifs at hstep with hlen
      cases hstep
      obtain ⟨hworker, henc⟩ := (s.withdraw lease).submit_kept
        ⟨{ buffer with bytes := bytes }, metadata⟩
      refine h.of_slots hworker henc fun hlive => ?_
      rw [submit_slots (s.withdraw lease) _ (h.room hlive hlease)]
      have hback := withdraw_slots hlease
      exact hback
    · cases hstep
  | dropLease lease =>
    split at hstep
    · rename_i buffer hidle hlease
      cases hstep
      refine h.of_slots rfl rfl fun hlive => ?_
      rw [← withdraw_slots hlease]
      have hback := giveBack_slots buffer (h.room hlive hlease)
      simp only [Recording.slots, hand, withdraw, hback]
      abel
    · cases hstep
  | storeFinishIndex index | storeFinishFlag | storeFinishPhase =>
    split_ifs at hstep with hidle
    cases hstep
    exact h.of_slots rfl rfl fun _ => rfl
  | tick nanoseconds | receive | timeout | handle audio | loadFlag audio
  | stamp | readElapsed => cases hstep

variable {item : RecorderWorkItem}

theorem receiveItem_slots {e : EncodeState} {back : Option FrameBuffer} (hpaired : s.encoder.Paired)
    (h : s.encoder.receiveItem sink frameBytes item = .ok (e, back)) :
    e.Paired ∧
      (back.toList.map (·.slot) : Multiset ℕ) + (e.lastFrame.toList.map (·.slot) : Multiset ℕ) =
        {item.pixels.slot} + (s.encoder.lastFrame.toList.map (·.slot) : Multiset ℕ) := by
  obtain ⟨-, rfl, rfl⟩ | ⟨-, rfl, hframe, hlast, -⟩ := EncodeState.receiveItem_ok hpaired h
  · exact ⟨hpaired, rfl⟩
  · refine ⟨?_, ?_⟩
    · rw [EncodeState.Paired, hframe, hlast]
      exact iff_of_false (by simp) (by simp)
    · rw [hframe, add_comm]
      rfl

theorem handleItem (h : Conserved s) (hworker : s.worker = .handling item)
    (audio : Except String Unit) :
    Conserved (s.handleItem frameBytes sink item audio) := by
  unfold Recording.handleItem
  cases hrecv : s.encoder.receiveItem sink frameBytes item with
  | error error => exact ⟨h.paired, fun hlive => absurd rfl (hlive error)⟩
  | ok result =>
    obtain ⟨encoder, back⟩ := result
    obtain ⟨hpaired, hslots⟩ := receiveItem_slots h.paired hrecv
    cases audio with
    | error error => exact ⟨hpaired, fun hlive => absurd rfl (hlive error)⟩
    | ok value =>
      have hlive : ∀ error, s.worker ≠ .failed error := by simp [hworker]
      have hroom : s.pool.length < recorderFramePoolCapacity := by
        have hcard := s.card_slots
        rw [h.slots hlive, card_range, hand, hworker] at hcard
        simp only [List.length_singleton] at hcard
        omega
      have hpool : ((back.elim s.pool (giveBack s.pool)).map (·.slot) :
          Multiset ℕ) = (s.pool.map (·.slot) : Multiset ℕ) +
            (back.toList.map (·.slot) : Multiset ℕ) := by
        cases back with
        | none => simp
        | some buffer => exact giveBack_slots buffer hroom
      refine ⟨hpaired, fun _ => ?_⟩
      rw [← h.slots hlive]
      simp only [Recording.slots, hand, hworker, hpool, List.map_nil,
        List.map_cons, Multiset.coe_nil, Multiset.coe_singleton, add_zero]
      rw [add_right_comm _ (back.toList.map (·.slot) : Multiset ℕ),
        add_right_comm _ (back.toList.map (·.slot) : Multiset ℕ), add_assoc, hslots, ← add_assoc]

theorem workerStep (h : Conserved s)
    (hstep : s.workerStep frameBytes sink label = some t) : Conserved t := by
  cases label with simp only [Recording.workerStep] at hstep
  | receive =>
    split at hstep
    · rename_i item queue hworker hqueue
      cases hstep
      refine ⟨h.paired, fun _ => ?_⟩
      rw [← h.slots (by simp [hworker])]
      simp only [Recording.slots, hand, hworker, hqueue, List.map_cons, List.map_nil,
        ← Multiset.cons_coe, ← Multiset.singleton_add, coe_nil, add_zero]
      abel
    · cases hstep
  | timeout | stamp =>
    split at hstep <;> cases hstep
    refine ⟨h.paired, fun _ => ?_⟩
    rw [← h.slots (by simp [*])]
    simp only [Recording.slots, hand, *]
  | handle audio =>
    split at hstep
    · rename_i item hworker
      cases hstep
      exact h.handleItem hworker audio
    · cases hstep
  | loadFlag audio =>
    split at hstep
    · rename_i error hworker
      cases hstep
      exact ⟨h.paired, fun hlive => absurd rfl (hlive error)⟩
    · rename_i hworker
      cases hstep
      refine ⟨h.paired, fun _ => ?_⟩
      rw [← h.slots (by simp [hworker])]
      split_ifs with hflag
      · simp only [Recording.slots, hand, hworker]
      · simp only [Recording.slots, hand, hworker]
    · cases hstep
  | readElapsed =>
    split at hstep
    · rename_i fresh started hworker hstart
      cases hstep
      refine ⟨h.paired, fun _ => ?_⟩
      rw [← h.slots (by simp [hworker])]
      split_ifs with helapsed
      · simp only [Recording.slots, hand, hworker]
      · simp only [Recording.slots, hand, hworker]
    · cases hstep
  | acquire | submit lease bytes metadata | dropLease lease
  | storeFinishIndex index | storeFinishFlag | storeFinishPhase
  | tick nanoseconds => cases hstep

theorem step (h : Conserved s) (hstep : s.step frameBytes sink label = some t) : Conserved t := by
  unfold Recording.step at hstep
  split at hstep
  · cases hstep
    exact ⟨h.paired, h.slots⟩
  all_goals first
    | exact h.workerStep hstep
    | exact h.renderStep hstep

theorem of_reachable (h : (machine frameBytes sink).Reachable s) : Conserved s := by
  refine h.invariant ?_ fun _ _ _ hs hstep => hs.step hstep
  rintro _ rfl
  exact initial frameBytes

end Conserved

end Recording

end CollideOScope.Recorder
