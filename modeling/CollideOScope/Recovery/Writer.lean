import CollideOScope.Recovery.Journal

/-!
# The recovery writer

One worker thread owns the journal.  Producers replace a single pending slot
under the mutex, and the worker takes the slot, calls its backend without the
mutex, and publishes the outcome under the mutex again.

Every critical section is one function on `RecoveryWriterShared`.  The machine
interleaves the sections of any number of producers with those of the worker.
The backend and its factory are the environment: the labels carry what they
return, and the worker may unwind wherever it is running code of its own or of
the backend.
-/

namespace CollideOScope.Recovery

def recoveryWriterMaxJobs : ℕ := 2
def recoveryWriterStatusMaxBytes : ℕ := 512

/-- The longest initial segment of a text within a byte budget. -/
def fitChars (budget : ℕ) : List Char → List Char
  | [] => []
  | c :: cs =>
    if c.utf8Size ≤ budget then c :: fitChars (budget - c.utf8Size) cs
    else []

/-- `bounded_status`: cut a text at a character boundary. -/
def boundedStatus (status : String) : String :=
  if status.utf8ByteSize ≤ recoveryWriterStatusMaxBytes then status
  else String.ofList (fitChars (recoveryWriterStatusMaxBytes - 3) status.toList) ++ "..."

inductive RecoveryRequestError where
  | requestIdExhausted | shuttingDown | unavailable

structure RecoveryEnqueueReceipt where
  requestId : UInt64
  (supersededRequestId durableSequenceAtRequest : Option UInt64)

inductive RecoveryWriterOperation (Patch : Type) where
  | checkpoint (patch : Patch)
  | discard

structure RecoveryWriterRequest (Patch : Type) where
  id : UInt64
  operation : RecoveryWriterOperation Patch

inductive RecoveryWorkerSuccess where
  | checkpoint (receipt : JournalAppendReceipt)
  | discard

structure RecoveryWriterShared (Patch : Type) where
  pending : Option (RecoveryWriterRequest Patch)
  inFlightRequestId : Option UInt64
  durableScan : RecoveryScan Patch
  (accepting shutdownRequested initialized workerStopped : Bool)
  revision : UInt64
  (lastDurableRequestId lastFailedRequestId : Option UInt64)
  lastReceipt : Option JournalAppendReceipt
  (submittedRequests supersededRequests failedRequests maxObservedJobs : ℕ)
  error : Option String

/-- The identifier handed out by `next_request_id.fetch_update`, with the next
one. -/
def allocateRequestId (next : UInt64) : Except RecoveryRequestError (UInt64 × UInt64) :=
  if next.toNat + 1 < 2 ^ 64 then .ok (next, next + 1)
  else .error .requestIdExhausted

namespace RecoveryWriterShared

variable {Patch : Type}

def default : RecoveryWriterShared Patch where
  pending := none
  inFlightRequestId := none
  durableScan := RecoveryScan.default
  accepting := true
  shutdownRequested := false
  initialized := false
  workerStopped := false
  revision := 1
  lastDurableRequestId := none
  lastFailedRequestId := none
  lastReceipt := none
  submittedRequests := 0
  supersededRequests := 0
  failedRequests := 0
  maxObservedJobs := 0
  error := none

/-- The locked part of `request`. -/
def request (state : RecoveryWriterShared Patch) (request : RecoveryWriterRequest Patch) :
    Except RecoveryRequestError RecoveryEnqueueReceipt × RecoveryWriterShared Patch :=
  if state.accepting then
    let superseded := state.pending.map (·.id)
    let jobs := state.inFlightRequestId.isSome.toNat + 1
    (.ok
      { requestId := request.id
        supersededRequestId := superseded
        durableSequenceAtRequest := state.durableScan.latest.map (·.sequence) },
      { state with
        supersededRequests :=
          if superseded.isSome then saturatingAddU64 state.supersededRequests 1
          else state.supersededRequests
        pending := some request
        submittedRequests := saturatingAddU64 state.submittedRequests 1
        maxObservedJobs := max state.maxObservedJobs jobs
        revision := nextRevision state.revision })
  else (.error (if state.shutdownRequested then .shuttingDown else .unavailable), state)

/-- The first locked part of `flush_with_deadline`, and all of `drop`. -/
def shutdown (state : RecoveryWriterShared Patch) : RecoveryWriterShared Patch :=
  { state with
    accepting := false
    shutdownRequested := true
    revision := nextRevision state.revision }

/-- The section entered when the backend factory failed. -/
def factoryFailed (state : RecoveryWriterShared Patch)
    (error : RecoveryJournalError) : RecoveryWriterShared Patch :=
  { state with
    accepting := false
    workerStopped := true
    error := some (boundedStatus error.display)
    pending := none
    lastFailedRequestId := (state.pending.map (·.id)).or state.lastFailedRequestId
    failedRequests :=
      if state.pending.isSome then saturatingAddU64 state.failedRequests 1
      else state.failedRequests
    revision := nextRevision state.revision }

/-- The section that publishes the backend's first scan. -/
def publishInitial (state : RecoveryWriterShared Patch)
    (scan : RecoveryScan Patch) : RecoveryWriterShared Patch :=
  { state with
    durableScan := scan
    error := scan.warning.map boundedStatus
    initialized := true
    revision := nextRevision state.revision }

def take (state : RecoveryWriterShared Patch)
    (request : RecoveryWriterRequest Patch) : RecoveryWriterShared Patch :=
  { state with
    pending := none
    inFlightRequestId := some request.id
    revision := nextRevision state.revision }

/-- The loop head when nothing is pending and shutdown was requested. -/
def stop (state : RecoveryWriterShared Patch) : RecoveryWriterShared Patch :=
  { state with
    accepting := false
    workerStopped := true
    revision := nextRevision state.revision }

def publish (state : RecoveryWriterShared Patch) (request : RecoveryWriterRequest Patch)
    (success : RecoveryWorkerSuccess) (scan : RecoveryScan Patch) :
    RecoveryWriterShared Patch :=
  let state := { state with
    inFlightRequestId := none
    durableScan := scan
    lastFailedRequestId := none
    error := none
    revision := nextRevision state.revision }
  match success with
  | .checkpoint receipt =>
    { state with
      lastDurableRequestId := some request.id
      lastReceipt := some receipt }
  | .discard =>
    { state with
      lastDurableRequestId := none
      lastReceipt := none }

/-- The section that records a failed outcome, before the mutex is released for
`recover_after_failure`. -/
def recordFailure (state : RecoveryWriterShared Patch)
    (request : RecoveryWriterRequest Patch) (error : RecoveryJournalError) :
    RecoveryWriterShared Patch :=
  { state with
    inFlightRequestId := none
    lastFailedRequestId := some request.id
    failedRequests := saturatingAddU64 state.failedRequests 1
    error := some (boundedStatus error.display) }

/-- The section after `recover_after_failure`. -/
def recovered (state : RecoveryWriterShared Patch) (reopenError : Option RecoveryJournalError) :
    RecoveryWriterShared Patch :=
  { state with
    error :=
      match reopenError with
      | none => state.error
      | some reopenError =>
        some (boundedStatus ((state.error.getD "append failed") ++
          "; worker rescan failed: " ++ reopenError.display))
    revision := nextRevision state.revision }

def panicked (state : RecoveryWriterShared Patch) : RecoveryWriterShared Patch :=
  let inFlight := state.inFlightRequestId
  let pending := state.pending.map (·.id)
  { state with
    accepting := false
    shutdownRequested := true
    workerStopped := true
    inFlightRequestId := none
    pending := none
    lastFailedRequestId := (pending.or inFlight).or state.lastFailedRequestId
    failedRequests :=
      if (pending.or inFlight).isSome then
        saturatingAddU64 state.failedRequests (inFlight.isSome.toNat + pending.isSome.toNat)
      else state.failedRequests
    error := some "recovery worker stopped after an internal panic"
    revision := nextRevision state.revision }

end RecoveryWriterShared

inductive StopCause where
  | drained | factoryFailed | panicked

/-- Where the worker is between two critical sections. -/
inductive WorkerPhase (Patch : Type) where
  | starting | opened
  | openFailed (error : RecoveryJournalError)
  | waiting
  | calling (request : RecoveryWriterRequest Patch)
  | succeeded (request : RecoveryWriterRequest Patch)
      (success : RecoveryWorkerSuccess)
  | failed (request : RecoveryWriterRequest Patch)
      (error : RecoveryJournalError)
  | reopening
  | reopened (error : Option RecoveryJournalError)
  | unwinding
  | stopped (cause : StopCause)

/-- The worker still runs code that may unwind. -/
def WorkerPhase.running {Patch : Type} : WorkerPhase Patch → Bool
  | .unwinding => false
  | .stopped _ => false
  | _ => true

/-- The shared state, the identifier counter, the producers that hold an
identifier but not yet the mutex, and the worker. -/
structure WriterState (Patch : Type) where
  shared : RecoveryWriterShared Patch
  nextRequestId : UInt64
  callers : List (RecoveryWriterRequest Patch)
  worker : WorkerPhase Patch

inductive WriterLabel (Patch : Type) where
  | allocate (operation : RecoveryWriterOperation Patch)
  | request (caller : ℕ)
  | shutdown
  | factory (result : Except RecoveryJournalError Unit)
  | factoryFailed
  | publishInitial (scan : RecoveryScan Patch)
  | take | stop
  | backend (outcome : Except RecoveryJournalError JournalAppendReceipt)
  | publish (scan : RecoveryScan Patch)
  | recordFailure
  | reopen (error : Option RecoveryJournalError)
  | recovered | panic
  | panicPublishingInitial (scan : Option (RecoveryScan Patch))
  | panicPublishing | guard

section

variable {Patch : Type}

/-- The outcome of a backend call: a checkpoint returns its receipt, a discard
returns nothing. -/
def RecoveryWriterOperation.success (receipt : JournalAppendReceipt) :
    RecoveryWriterOperation Patch → RecoveryWorkerSuccess
  | .checkpoint _ => .checkpoint receipt
  | .discard => .discard

def writerStep (s : WriterState Patch) : WriterLabel Patch → Option (WriterState Patch)
  | .allocate operation =>
    match allocateRequestId s.nextRequestId with
    | .error _ => some s
    | .ok (id, next) =>
      some { s with
        nextRequestId := next
        callers := ⟨id, operation⟩ :: s.callers }
  | .request caller =>
    match s.callers[caller]? with
    | none => none
    | some request =>
      some { s with
        shared := (s.shared.request request).2
        callers := s.callers.eraseIdx caller }
  | .shutdown => some { s with shared := s.shared.shutdown }
  | .factory result =>
    match s.worker with
    | .starting =>
      match result with
      | .ok () => some { s with worker := .opened }
      | .error error => some { s with worker := .openFailed error }
    | _ => none
  | .factoryFailed =>
    match s.worker with
    | .openFailed error =>
      some { s with
        shared := s.shared.factoryFailed error
        worker := .stopped .factoryFailed }
    | _ => none
  | .publishInitial scan =>
    match s.worker with
    | .opened =>
      some { s with
        shared := s.shared.publishInitial scan
        worker := .waiting }
    | _ => none
  | .take =>
    match s.worker, s.shared.pending with
    | .waiting, some request =>
      some { s with
        shared := s.shared.take request
        worker := .calling request }
    | _, _ => none
  | .stop =>
    match s.worker, s.shared.pending, s.shared.shutdownRequested with
    | .waiting, none, true => some { s with shared := s.shared.stop, worker := .stopped .drained }
    | _, _, _ => none
  | .backend outcome =>
    match s.worker with
    | .calling request =>
      match outcome with
      | .ok receipt =>
        some { s with worker := .succeeded request (request.operation.success receipt) }
      | .error error => some { s with worker := .failed request error }
    | _ => none
  | .publish scan =>
    match s.worker with
    | .succeeded request success =>
      some { s with
        shared := s.shared.publish request success scan
        worker := .waiting }
    | _ => none
  | .recordFailure =>
    match s.worker with
    | .failed request error =>
      some { s with
        shared := s.shared.recordFailure request error
        worker := .reopening }
    | _ => none
  | .reopen error =>
    match s.worker with
    | .reopening => some { s with worker := .reopened error }
    | _ => none
  | .recovered =>
    match s.worker with
    | .reopened error => some { s with shared := s.shared.recovered error, worker := .waiting }
    | _ => none
  | .panic => if s.worker.running then some { s with worker := .unwinding } else none
  | .panicPublishingInitial scan =>
    match s.worker with
    | .opened =>
      some { s with
        shared := { s.shared with durableScan := scan.getD s.shared.durableScan }
        worker := .unwinding }
    | _ => none
  | .panicPublishing =>
    match s.worker with
    | .succeeded _ _ =>
      some { s with
        shared := { s.shared with inFlightRequestId := none }
        worker := .unwinding }
    | _ => none
  | .guard =>
    match s.worker with
    | .unwinding =>
      some { s with
        shared := s.shared.panicked
        worker := .stopped .panicked }
    | _ => none

def writerMachine (Patch : Type) : Machine (WriterState Patch) (WriterLabel Patch) where
  start s := s = ⟨RecoveryWriterShared.default, 1, [], .starting⟩
  step := writerStep

/-- What happened in a run: how many requests completed successfully, and the
requests accepted and handed to the backend, newest first. -/
structure WriterHistory where
  completed : ℕ
  (accepted handed : List UInt64)

def WriterHistory.next (history : WriterHistory) (s : WriterState Patch) :
    WriterLabel Patch → WriterHistory
  | .request caller =>
    match s.callers[caller]? with
    | none => history
    | some request =>
      match (s.shared.request request).1 with
      | .ok receipt => { history with accepted := receipt.requestId :: history.accepted }
      | .error _ => history
  | .take =>
    match s.shared.pending with
    | none => history
    | some request => { history with handed := request.id :: history.handed }
  | .publish _ => { history with completed := history.completed + 1 }
  | .panicPublishing => { history with completed := history.completed + 1 }
  | _ => history

def writerRuns (Patch : Type) : Machine (WriterState Patch × WriterHistory) (WriterLabel Patch) :=
  (writerMachine Patch).observe ⟨0, [], []⟩
    fun history s e _ => history.next s e

end

end CollideOScope.Recovery
