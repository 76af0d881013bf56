import CollideOScope.Autopilot.Scheduler

/-!
# The preparation runtime

The host submits one preparation at a time and polls for its completion.
Workers take jobs from a mailbox that keeps only the newest one, prepare the
sources of a job, and publish the result into a single completion slot.

A label of the machine is one atomic action of the host or of one worker: a
load or store of a shared atomic, or a critical section of a lock.  The two
loads of `is_current` are one action, since its flag is set only when the host
drops the runtime and makes no further call.
-/

namespace CollideOScope.Preparation

open CollideOScope.Autopilot (SceneId)

structure PerformanceResourceBudget where
  (maxPreparedSources maxPreloadBytes : ℕ)

namespace PerformanceResourceBudget

/-- `PerformanceResourceBudget::default`, the fields preparation reads. -/
def default : PerformanceResourceBudget := ⟨16, 512 * 1024 * 1024⟩

def admitPreparedSource (budget : PerformanceResourceBudget)
    (preparedSources : ℕ) : Except String Unit :=
  if preparedSources < budget.maxPreparedSources then .ok ()
  else .error "prepared source limit reached"

def admitPreloadBytes (budget : PerformanceResourceBudget)
    (currentlyReserved requested : ℕ) : Except String ℕ :=
  if u64Max < currentlyReserved + requested then
    .error "performance preload byte accounting overflow"
  else if currentlyReserved + requested ≤ budget.maxPreloadBytes then
    .ok (currentlyReserved + requested)
  else .error "performance preload byte budget exceeded"

end PerformanceResourceBudget

structure PreparedBudgetSnapshot where
  (sourceCount preloadBytes : ℕ)

namespace PreparedBudgetSnapshot

def acquire (state : PreparedBudgetSnapshot) (budget : PerformanceResourceBudget) (bytes : ℕ) :
    Except String PreparedBudgetSnapshot := do
  budget.admitPreparedSource state.sourceCount
  let preloadBytes ← budget.admitPreloadBytes state.preloadBytes bytes
  if u64Max < state.sourceCount + 1 then .error "prepared source accounting overflow"
  else .ok ⟨state.sourceCount + 1, preloadBytes⟩

/-- `PreparedLease::drop`. -/
def release (state : PreparedBudgetSnapshot) (bytes : ℕ) : PreparedBudgetSnapshot :=
  ⟨state.sourceCount - 1, state.preloadBytes - bytes⟩

end PreparedBudgetSnapshot

abbrev StableLayerId := {id : UInt64 // id ≠ 0}

abbrev ClipSlotId := {id : UInt16 // id ≠ 0}

inductive PreparedTransactionKey where
  | layerSlot (layerId : StableLayerId) (slotId : ClipSlotId)
  | scene (sceneId : SceneId)
  deriving DecidableEq

/-- One replacement of a request; its source is opened by the preparer. -/
structure SourcePreparationRequest where
  targetLayer : StableLayerId
  desiredSlot : ClipSlotId

structure PreparationRequest where
  key : PreparedTransactionKey
  replacements : List SourcePreparationRequest

def PreparationRequest.replacementCount (request : PreparationRequest) : ℕ :=
  request.replacements.length

inductive PreparationFailureKind where
  | invalidRequest | sourceOpen | sourceTimeout | resourceBudget | gpuActivation
  | commitConflict

abbrev PreparationGeneration := ℕ

structure PreparationFailure where
  generation : PreparationGeneration
  key : PreparedTransactionKey
  kind : PreparationFailureKind
  message : String

structure CpuPreparedSource where
  (width height : UInt32)
  firstRgba : Bytes
  preloadBytes : ℕ

def CpuPreparedSource.validate (source : CpuPreparedSource) : Except String Unit :=
  let width := source.width.toNat
  let height := source.height.toNat
  let expected := width * height * 4
  let supplied := source.firstRgba.length
  if u64Max < expected then .error s!"prepared source dimensions overflow for {width}x{height}"
  else if width = 0 ∨ height = 0 ∨ supplied ≠ expected then
    .error (s!"prepared source supplied {supplied} bytes; " ++
      s!"expected {expected} for {width}x{height}")
  else .ok ()

structure PreparedReplacement where
  targetLayer : StableLayerId
  desiredSlot : ClipSlotId
  prepared : CpuPreparedSource
  leaseBytes : ℕ

structure PreparedTransaction where
  generation : PreparationGeneration
  key : PreparedTransactionKey
  replacements : List PreparedReplacement

abbrev PreparationResult := Except PreparationFailure PreparedTransaction

def PreparationResult.generation : PreparationResult → PreparationGeneration
  | .ok transaction => transaction.generation
  | .error failure => failure.generation

inductive SourceOutcome where
  | prepared (source : CpuPreparedSource)
  | superseded
  | failed (kind : PreparationFailureKind) (message : String)
  | panicked

/-- A job; its cancel flag is named by its generation. -/
structure PreparationJob where
  generation : PreparationGeneration
  request : PreparationRequest

structure WorkerCompletion where
  generation : PreparationGeneration
  result : PreparationResult

structure JobMailbox where
  pending : Option PreparationJob
  currentCancel : Option PreparationGeneration
  /-- The cancel flags that are set. -/
  cancelled : List PreparationGeneration
  /-- The flag under the lock. -/
  lockedStop : Bool
  latestGeneration : PreparationGeneration
  stopped : Bool

namespace JobMailbox

def new : JobMailbox := ⟨none, none, [], false, 0, false⟩

/-- The first action of `submit` and of `cancel`. -/
def store (m : JobMailbox) (generation : PreparationGeneration) : JobMailbox :=
  { m with latestGeneration := generation }

/-- The critical section of `submit`. -/
def submit (m : JobMailbox) (job : PreparationJob) : JobMailbox :=
  { m with
    pending := some job
    currentCancel := some job.generation
    cancelled := m.currentCancel.toList ++ m.cancelled }

/-- The critical section of `cancel`. -/
def cancel (m : JobMailbox) : JobMailbox :=
  { m with
    pending := none
    currentCancel := none
    cancelled := m.currentCancel.toList ++ m.cancelled }

/-- The critical section of `stop`. -/
def stop (m : JobMailbox) : JobMailbox := { m.cancel with lockedStop := true }

def isCurrent (m : JobMailbox) (generation : PreparationGeneration) : Bool :=
  !m.stopped && m.latestGeneration == generation

end JobMailbox

inductive HostStage where
  | idle
  /-- The eviction loop of `submit`. -/
  | evicting (request : PreparationRequest)
  | issuing (request : PreparationRequest)
  | enqueueing (job : PreparationJob)
  | cancelling | clearing | stopping | dropped

inductive WorkerStage where
  | waiting
  /-- In `prepare_job`, with the replacements prepared so far. -/
  | preparing (job : PreparationJob) (done : List PreparedReplacement)
  | opened (job : PreparationJob) (done : List PreparedReplacement)
      (source : CpuPreparedSource)
  | admitting (job : PreparationJob) (done : List PreparedReplacement)
      (source : CpuPreparedSource)
  /-- After `prepare_job`. -/
  | finished (job : PreparationJob) (result : Option PreparationResult)
  /-- After the last `is_current`. -/
  | publishing (generation : PreparationGeneration)
      (result : PreparationResult)
  | exited

inductive PreparationPoll where
  | idle
  | pending (generation : PreparationGeneration)
  | ready (generation : PreparationGeneration) (key : PreparedTransactionKey)
  | failed (failure : PreparationFailure)

structure PerformancePreparationRuntime (W : Type) where
  budget : PerformanceResourceBudget
  ledger : PreparedBudgetSnapshot
  mailbox : JobMailbox
  completion : Option WorkerCompletion
  ready : List PreparedTransaction
  nextGeneration : ℕ
  pendingGeneration : Option PreparationGeneration
  host : HostStage
  worker : W → WorkerStage

namespace PerformancePreparationRuntime

variable {W : Type}

def new (budget : PerformanceResourceBudget) : PerformancePreparationRuntime W where
  budget := budget
  ledger := ⟨0, 0⟩
  mailbox := .new
  completion := none
  ready := []
  nextGeneration := 0
  pendingGeneration := none
  host := .idle
  worker := fun _ => .waiting

def drop (s : PerformancePreparationRuntime W) (replacements : List PreparedReplacement) :
    PerformancePreparationRuntime W :=
  { s with
    ledger := replacements.foldl (fun ledger replacement => ledger.release replacement.leaseBytes)
      s.ledger }

def dropResult (s : PerformancePreparationRuntime W) :
    Option PreparationResult → PerformancePreparationRuntime W
  | some (.ok transaction) => s.drop transaction.replacements
  | _ => s

def removeReady (s : PerformancePreparationRuntime W)
    (key : PreparedTransactionKey) : PerformancePreparationRuntime W :=
  match s.ready.find? (·.key = key) with
  | none => s
  | some transaction =>
    drop { s with ready := s.ready.eraseP (·.key = key) } transaction.replacements

/-- `submit` up to its eviction loop. -/
def submit (s : PerformancePreparationRuntime W) (request : PreparationRequest) :
    Except PreparationFailure (PerformancePreparationRuntime W) :=
  let count := request.replacementCount
  let limit := s.budget.maxPreparedSources
  if limit < count then
    .error ⟨s.nextGeneration, request.key, .resourceBudget,
      s!"transaction needs {count} prepared sources; host limit is {limit}"⟩
  else .ok { s.removeReady request.key with host := .evicting request }

/-- One round of the eviction loop of `submit`. -/
def evict (s : PerformancePreparationRuntime W)
    (request : PreparationRequest) : PerformancePreparationRuntime W :=
  if s.budget.maxPreparedSources <
      s.ledger.sourceCount + request.replacementCount then
    match s.ready with
    | [] => { s with host := .issuing request }
    | transaction :: ready => drop { s with ready := ready } transaction.replacements
  else { s with host := .issuing request }

/-- Take the next generation and store it as the latest one. -/
def issue (s : PerformancePreparationRuntime W) (request : PreparationRequest) :
    Except PreparationFailure (PerformancePreparationRuntime W) :=
  if u64Max < s.nextGeneration + 1 then
    .error ⟨u64Max, request.key, .invalidRequest, "performance preparation generation exhausted"⟩
  else
    .ok { s with
      nextGeneration := s.nextGeneration + 1
      pendingGeneration := some (s.nextGeneration + 1)
      mailbox := s.mailbox.store (s.nextGeneration + 1)
      host := .enqueueing ⟨s.nextGeneration + 1, request⟩ }

/-- `cancel_pending` up to the store of its generation. -/
def cancelPending (s : PerformancePreparationRuntime W) :
    Except String (PerformancePreparationRuntime W) :=
  if u64Max < s.nextGeneration + 1 then .error "performance preparation generation exhausted"
  else
    .ok { s with
      nextGeneration := s.nextGeneration + 1
      pendingGeneration := none
      mailbox := s.mailbox.store (s.nextGeneration + 1)
      host := .cancelling }

/-- The last action of `cancel_pending`. -/
def clearCompletion (s : PerformancePreparationRuntime W) : PerformancePreparationRuntime W :=
  dropResult { s with completion := none, host := .idle } (s.completion.map (·.result))

/-- The answer of `poll` when no completion fits. -/
def pendingPoll (s : PerformancePreparationRuntime W) : PreparationPoll :=
  match s.pendingGeneration with
  | none => .idle
  | some generation => .pending generation

def poll (s : PerformancePreparationRuntime W) :
    PreparationPoll × PerformancePreparationRuntime W :=
  match s.completion with
  | none => (s.pendingPoll, s)
  | some completion =>
    let taken := { s with completion := none }
    if s.pendingGeneration ≠ some completion.generation then
      (s.pendingPoll, taken.dropResult (some completion.result))
    else
      let settled := { taken with pendingGeneration := none }
      match completion.result with
      | .ok transaction =>
        let removed := settled.removeReady transaction.key
        (.ready transaction.generation transaction.key,
          { removed with ready := removed.ready ++ [transaction] })
      | .error failure => (.failed failure, settled)

/-- `take_ready`, without the returned transaction. -/
def takeReady (s : PerformancePreparationRuntime W)
    (key : PreparedTransactionKey) : PerformancePreparationRuntime W :=
  { s with ready := s.ready.eraseP (·.key = key) }

def clearReady (s : PerformancePreparationRuntime W) : PerformancePreparationRuntime W :=
  drop { s with ready := [] } (s.ready.flatMap (·.replacements))

variable [DecidableEq W]

def move (s : PerformancePreparationRuntime W) (w : W) (stage : WorkerStage) :
    PerformancePreparationRuntime W :=
  { s with worker := Function.update s.worker w stage }

/-- `JobMailbox::take`, blocking while there is no job. -/
def take (s : PerformancePreparationRuntime W) (w : W) : Option (PerformancePreparationRuntime W) :=
  if s.mailbox.lockedStop then some (s.move w .exited)
  else
    s.mailbox.pending.map fun job =>
      move { s with mailbox := { s.mailbox with pending := none } } w (.preparing job [])

variable (s : PerformancePreparationRuntime W) (w : W) (job : PreparationJob)
  (done : List PreparedReplacement)

/-- Leave `prepare_job` with a failure. -/
def fail (kind : PreparationFailureKind) (message : String) : PerformancePreparationRuntime W :=
  (s.drop done).move w
    (.finished job (some (.error ⟨job.generation, job.request.key, kind, message⟩)))

/-- Leave `prepare_job` without a result. -/
def supersede : PerformancePreparationRuntime W := (s.drop done).move w (.finished job none)

def openSource : SourceOutcome → PerformancePreparationRuntime W
  | .prepared source => s.move w (.opened job done source)
  | .superseded => s.supersede w job done
  | .failed kind message => s.fail w job done kind message
  | .panicked => s.fail w job done .sourceOpen
      "performance source preparation worker panicked"

/-- The `is_current` after a source was opened. -/
def recheck (source : CpuPreparedSource) : PerformancePreparationRuntime W :=
  if s.mailbox.isCurrent job.generation then s.move w (.admitting job done source)
  else s.supersede w job done

/-- Validate an opened source and acquire its lease. -/
def admitReplacement (source : CpuPreparedSource) (request : SourcePreparationRequest) :
    PerformancePreparationRuntime W :=
  match source.validate with
  | .error message => s.fail w job done .sourceOpen message
  | .ok () =>
    match s.ledger.acquire s.budget source.preloadBytes with
    | .error message =>
      let slot := request.desiredSlot.val.toNat
      let layer := request.targetLayer.val.toNat
      s.fail w job done .resourceBudget s!"cannot prepare slot {slot} for layer {layer}: {message}"
    | .ok ledger =>
      move { s with ledger := ledger } w
        (.preparing job (done ++ [⟨request.targetLayer,
          request.desiredSlot, source, source.preloadBytes⟩]))

/-- The last `is_current` of `prepare_job`. -/
def complete : PerformancePreparationRuntime W :=
  if s.mailbox.isCurrent job.generation then
    s.move w (.finished job (some (.ok ⟨job.generation, job.request.key, done⟩)))
  else s.supersede w job done

/-- The `is_current` of `worker_loop`. -/
def checkCurrent (s : PerformancePreparationRuntime W) (w : W)
    (job : PreparationJob) (result : Option PreparationResult) :
    PerformancePreparationRuntime W :=
  if s.mailbox.isCurrent job.generation then
    match result with
    | none => s.move w .waiting
    | some result => s.move w (.publishing job.generation result)
  else (s.dropResult result).move w .waiting

def publish (s : PerformancePreparationRuntime W) (w : W)
    (generation : PreparationGeneration) (result : PreparationResult) :
    PerformancePreparationRuntime W :=
  move (dropResult { s with completion := some ⟨generation, result⟩ }
    (s.completion.map (·.result))) w .waiting

end PerformancePreparationRuntime

inductive HostAction where
  | submit (request : PreparationRequest)
  | cancelPending | poll
  | takeReady (key : PreparedTransactionKey)
  | clearReady | drop
  /-- The next action of the call under way. -/
  | proceed

inductive PreparationLabel (W : Type) where
  | host (action : HostAction)
  /-- The next action of a worker outside the preparer. -/
  | worker (w : W)
  /-- The preparer returns in a worker. -/
  | source (w : W) (outcome : SourceOutcome)
  /-- Leases held outside the runtime change. -/
  | ledger (state : PreparedBudgetSnapshot)

open PerformancePreparationRuntime

variable {W : Type}

def hostCall (s : PerformancePreparationRuntime W) :
    HostAction → Option (PerformancePreparationRuntime W)
  | .submit request =>
    match s.submit request with
    | .ok t => some t
    | .error _ => some s
  | .cancelPending =>
    match s.cancelPending with
    | .ok t => some t
    | .error _ => some s
  | .poll => some s.poll.2
  | .takeReady key => some (s.takeReady key)
  | .clearReady => some s.clearReady
  | .drop => some { s with
      mailbox := { s.mailbox with stopped := true }
      host := .stopping }
  | .proceed => none

def hostProceed (s : PerformancePreparationRuntime W) : Option (PerformancePreparationRuntime W) :=
  match s.host with
  | .idle => none
  | .evicting request => some (s.evict request)
  | .issuing request =>
    match s.issue request with
    | .ok t => some t
    | .error _ => some { s with host := .idle }
  | .enqueueing job => some { s with mailbox := s.mailbox.submit job, host := .idle }
  | .cancelling => some { s with mailbox := s.mailbox.cancel, host := .clearing }
  | .clearing => some s.clearCompletion
  | .stopping => some { s with mailbox := s.mailbox.stop, host := .dropped }
  | .dropped => none

def hostStep (s : PerformancePreparationRuntime W) (action : HostAction) :
    Option (PerformancePreparationRuntime W) :=
  match action, s.host with
  | .proceed, _ => hostProceed s
  | call, .idle => hostCall s call
  | _, _ => none

variable [DecidableEq W]

def workerStep (s : PerformancePreparationRuntime W) (w : W) :
    Option (PerformancePreparationRuntime W) :=
  match s.worker w with
  | .waiting => s.take w
  | .preparing job done =>
    if done.length < job.request.replacements.length then none
    else some (s.complete w job done)
  | .opened job done source => some (s.recheck w job done source)
  | .admitting job done source =>
    job.request.replacements[done.length]?.map fun request =>
      s.admitReplacement w job done source request
  | .finished job result => some (s.checkCurrent w job result)
  | .publishing generation result => some (s.publish w generation result)
  | .exited => none

def sourceStep (s : PerformancePreparationRuntime W) (w : W)
    (outcome : SourceOutcome) : Option (PerformancePreparationRuntime W) :=
  match s.worker w with
  | .preparing job done =>
    if done.length < job.request.replacements.length then some (s.openSource w job done outcome)
    else none
  | _ => none

def preparationStep (s : PerformancePreparationRuntime W) :
    PreparationLabel W → Option (PerformancePreparationRuntime W)
  | .host action => hostStep s action
  | .worker w => workerStep s w
  | .source w outcome => sourceStep s w outcome
  | .ledger state => some { s with ledger := state }

def preparationMachine (W : Type) [DecidableEq W] (budget : PerformanceResourceBudget) :
    Machine (PerformancePreparationRuntime W) (PreparationLabel W) where
  start := (· = .new budget)
  step := preparationStep

end CollideOScope.Preparation
