import CollideOScope.Support.Machine
import Mathlib.Data.Nat.Notation

/-!
# Progress of an export and its publication

The export worker, the encoder supervisor and every caller of `cancel` share
one record of atomics.  The terminal outcome is published by two functions,
`finalize_export_worker` and `publish_cancelled_terminal`, which either thread
can call.  A call is followed here atomic action by atomic action: a load or
store of a shared field, a compare-and-exchange, or the acquisition of the
terminal lock.  Releasing the lock is part of the last action under it.

Removing a file is assumed to succeed, so the cleanup reports no error.
-/

namespace CollideOScope.Export

inductive Outcome where
  | running | cancelRequested | succeeded | failed | cancelled
  deriving DecidableEq

def Outcome.terminal : Outcome → Bool
  | .running | .cancelRequested => false
  | .succeeded | .failed | .cancelled => true

/-- The threads that can hold the terminal lock. -/
inductive Thread where
  | worker | supervisor
  deriving DecidableEq

/-- `ExportProgress`, the fields of the termination protocol. -/
structure ExportProgress where
  (cancel cancelled done : Bool)
  error : String
  outcome : Outcome
  /-- The thread that holds the lock. -/
  terminal : Option Thread
  outputStarted : Bool
  (encoderActive encoderCleanupComplete encoderFinishRequested abort : Bool)
  pendingWorkerError : Option String

namespace ExportProgress

def new : ExportProgress where
  cancel := false
  cancelled := false
  done := false
  error := ""
  outcome := .running
  terminal := none
  outputStarted := false
  encoderActive := false
  encoderCleanupComplete := true
  encoderFinishRequested := false
  abort := false
  pendingWorkerError := none

/-- `compare_exchange` on the outcome: the new record, or the actual value. -/
def compareExchange (p : ExportProgress) (current new : Outcome) : Except Outcome ExportProgress :=
  if p.outcome = current then .ok { p with outcome := new }
  else .error p.outcome

def unlock (p : ExportProgress) : ExportProgress := { p with terminal := none }

/-- `request_cancel` without interference. -/
def requestCancel (p : ExportProgress) : ExportProgress :=
  match p.compareExchange .running .cancelRequested with
  | .ok p' => { p' with cancel := true }
  | .error actual => if actual = .cancelRequested then { p with cancel := true } else p

end ExportProgress

structure Outputs where
  (video motionSidecar gestureSidecar performanceSidecar : Bool)
  deriving DecidableEq

def Outputs.none : Outputs := ⟨false, false, false, false⟩

/-- `remove_started_output`; a caller gives the job's output path or no
path. -/
def removeStartedOutput (p : ExportProgress) (outputPath : Bool) (outputs : Outputs) : Outputs :=
  if !p.outputStarted then outputs
  else if outputPath then .none
  else outputs

/-- What the section under the terminal lock was entered for. -/
inductive Entry where
  | finalize (workerError : Option String)
  | publishCancelled (outputPath : Bool)

/-- The next atomic action of a call of `finalize_export_worker` or
`publish_cancelled_terminal`. -/
inductive Call where
  | loadActive (workerError : Option String)
  | loadCleanup (workerError : Option String)
  | storePending (error : String)
  | storeAbort
  | lock (entry : Entry)
  | loadDone (entry : Entry)
  | loadOutcome (entry : Entry)
  | commitFailed (workerError : String)
  | commitSucceeded
  /-- `remove_started_output`, after a failure with its text or after a
  cancellation. -/
  | remove (outputPath : Bool) (failure : Option String)
  | storeCancelled | storeOutcome
  | storeError (error : String)
  | storeDone

namespace Call

/-- `finalize_export_worker`. -/
def finalize (workerError : Option String) : Call := .loadActive workerError

/-- `publish_cancelled_terminal`. -/
def publishCancelled (outputPath : Bool) : Call := .lock (.publishCancelled outputPath)

/-- The branches of `finalize_export_worker` on its decision. -/
def decide (workerError : Option String) : Outcome → Option Call
  | .cancelRequested => some (.remove true none)
  | .failed => some (.remove true (some (workerError.getD
      "export worker failed without diagnostic detail")))
  | .running => some .commitSucceeded
  | .succeeded | .cancelled => none

/-- The rest of a call under the lock; a return drops the guard. -/
def proceedWith (p : ExportProgress) (outputs : Outputs) :
    Option Call → ExportProgress × Outputs × Option Call
  | some next => (p, outputs, some next)
  | none => (p.unlock, outputs, none)

/-- One atomic action of a call by `thread`.  The result holds the rest of the
call, or nothing once it has returned; an action that waits is `none`. -/
def step (thread : Thread) (p : ExportProgress) (outputs : Outputs) :
    Call → Option (ExportProgress × Outputs × Option Call)
  | .loadActive workerError =>
    if p.encoderActive then some (p, outputs, some (.loadCleanup workerError))
    else some (p, outputs, some (.lock (.finalize workerError)))
  | .loadCleanup workerError =>
    if p.encoderCleanupComplete then some (p, outputs, some (.lock (.finalize workerError)))
    else
      match workerError with
      | some error => some (p, outputs, some (.storePending error))
      | none => some (p, outputs, none)
  | .storePending error =>
    some ({ p with pendingWorkerError := some error }, outputs, some .storeAbort)
  | .storeAbort => some ({ p with abort := true }, outputs, none)
  | .lock entry =>
    match p.terminal with
    | none => some ({ p with terminal := some thread }, outputs, some (.loadDone entry))
    | some _ => none
  | .loadDone entry =>
    if p.done then some (p.unlock, outputs, none)
    else some (p, outputs, some (.loadOutcome entry))
  | .loadOutcome (.finalize workerError) =>
    match workerError, p.outcome with
    | some error, .running => some (p, outputs, some (.commitFailed error))
    | workerError, decision => some (proceedWith p outputs (decide workerError decision))
  | .loadOutcome (.publishCancelled outputPath) =>
    if p.outcome ≠ .cancelRequested then some (p.unlock, outputs, none)
    else some (p, outputs, some (.remove outputPath none))
  | .commitFailed error =>
    match p.compareExchange .running .failed with
    | .ok p' => some (proceedWith p' outputs (decide (some error) .failed))
    | .error actual => some (proceedWith p outputs (decide (some error) actual))
  | .commitSucceeded =>
    match p.compareExchange .running .succeeded with
    | .ok p' => some (p', outputs, some .storeDone)
    | .error _ => some (p, outputs, some (.remove true none))
  | .remove outputPath failure =>
    let removed := removeStartedOutput p outputPath outputs
    match failure with
    | some error => some (p, removed, some (.storeError error))
    | none => some (p, removed, some .storeCancelled)
  | .storeCancelled => some ({ p with cancelled := true }, outputs, some .storeOutcome)
  | .storeOutcome =>
    some ({ p with outcome := .cancelled }, outputs, some (.storeError "export cancelled"))
  | .storeError error => some ({ p with error := error }, outputs, some .storeDone)
  | .storeDone => some ({ p.unlock with done := true }, outputs, none)

end Call

/-!
## The export worker, the encoder supervisor and the encoder

The worker runs `run_export` and then `finalize_export_worker`.  It starts a
supervisor thread, which alone owns the encoder process: the worker receives
the encoder's input, and later its completion, through two channels.  Callers
of `cancel` run concurrently with both.

A label of the machine is one atomic action of a thread, of a caller or of the
encoder.  The worker can fail or unwind wherever its code can, except inside
`start_encoder_supervisor` and between closing the encoder's input and joining
the supervisor, where nothing can panic.
-/

inductive Child where
  | absent | running
  | exited (success : Bool)
  | reaped
  deriving DecidableEq

def Child.kill : Child → Child
  | .running => .exited false
  | child => child

structure EncoderCompletion where
  status : Except String Bool
  stderr : Except String String

def isWhitespace (c : Char) : Bool :=
  (9 ≤ c.val && c.val ≤ 13) ||
    [0x20, 0x85, 0xA0, 0x1680, 0x2028, 0x2029, 0x202F, 0x205F, 0x3000].contains c.val ||
    (0x2000 ≤ c.val && c.val ≤ 0x200A)

def trim (text : String) : String :=
  String.ofList (((text.toList.dropWhile isWhitespace).reverse.dropWhile isWhitespace).reverse)

def firstChars (text : String) (count : ℕ) : String := String.ofList (text.toList.take count)

/-- The error of `run_export` for a completion and a failed frame. -/
def completionError (writeError : Option String) (completion : EncoderCompletion) : Option String :=
  match completion.status, completion.stderr, writeError with
  | .error error, _, _ => some error
  | .ok _, .error error, _ => some error
  | .ok _, .ok stderr, some error =>
    let detail := trim stderr
    if detail.isEmpty then some error
    else some s!"{error}: {firstChars detail 300}"
  | .ok true, .ok _, none => none
  | .ok false, .ok stderr, none => some s!"ffmpeg failed: {firstChars stderr 300}"

/-- The calls of `check_cancelled`. -/
inductive Check where
  /-- Any of the checks made while the export is prepared. -/
  | setup | beforeEncoder | beforeSidecars | afterSidecars

inductive Sidecar where
  | motion | gesture | performance

/-- The sidecars that are renamed into place without replacement. -/
def Sidecar.refuses (outputs : Outputs) : Sidecar → Bool
  | .motion => false
  | .gesture => outputs.gestureSidecar
  | .performance => outputs.performanceSidecar

def Sidecar.write (outputs : Outputs) : Sidecar → Outputs
  | .motion => { outputs with motionSidecar := true }
  | .gesture => { outputs with gestureSidecar := true }
  | .performance => { outputs with performanceSidecar := true }

inductive Worker where
  | check (point : Check)
  | setup
  /-- Between the last check and `start_encoder_supervisor`. -/
  | staging | spawning | awaitingReady
  | joiningFailed (error : String)
  | frames
  /-- After the frame loop, with its `write_error`. -/
  | finishing (writeError : Option String)
  | awaitingCompletion (writeError : Option String)
  | joining (writeError : Option String) (completion : EncoderCompletion)
  | joined (writeError : Option String) (completion : EncoderCompletion)
  | results (writeError : Option String) (completion : EncoderCompletion)
  | writing (sidecar : Sidecar)
  | publishingAlpha
  /-- In `publish_cancelled_terminal`, to return its cancellation next. -/
  | cancelling (call : Call)
  /-- Dropping the locals of `run_export`. -/
  | returning (workerError : Option String)
  /-- In `finalize_export_worker`. -/
  | finalizing (call : Call)
  | ended

def Check.next : Check → Worker
  | .setup => .setup
  | .beforeEncoder => .staging
  | .beforeSidecars => .writing .motion
  | .afterSidecars => .publishingAlpha

def Sidecar.next : Sidecar → Worker
  | .motion => .writing .gesture
  | .gesture => .writing .performance
  | .performance => .check .afterSidecars

/-- The worker after an action of `publish_cancelled_terminal`. -/
def Worker.afterCancelling : Option Call → Worker
  | some next => .cancelling next
  | none => .returning (some "export cancelled")

/-- The worker after an action of `finalize_export_worker`. -/
def Worker.afterFinalizing : Option Call → Worker
  | some next => .finalizing next
  | none => .ended

def Worker.canUnwind : Worker → Bool
  | .check _ | .setup | .staging | .frames | .joined _ _ | .results _ _
  | .writing _ | .publishingAlpha | .returning _ => true
  | _ => false

/-- What the worker does where its code leaves a choice. -/
inductive WorkerAction where
  | proceed | recheck
  /-- The operation fails and leaves nothing visible. -/
  | fail (error : String)
  /-- A sidecar is in place, but synchronizing its directory fails. -/
  | failVisible (error : String)
  /-- There is no such sidecar to write. -/
  | skip
  | leaveFrames (writeError : Option String)
  | unwind (detail : String)

inductive SupervisorExit where
  | withoutChild (error : String)
  /-- A pipe or the stderr reader is missing. -/
  | broken (error : String)
  | reaped (completion : EncoderCompletion)

inductive Supervisor where
  | absent | starting | spawning | claiming | clearing | piping | readying
  | waiting
  | forceReaping (error : String)
  | deactivating (exit : SupervisorExit)
  | completing (exit : SupervisorExit)
  | settling (exit : SupervisorExit)
  | loadingAbort (completion : EncoderCompletion)
  | takingPending (completion : EncoderCompletion)
  | loadingFinish (completion : EncoderCompletion)
  | publishing (call : Call) (exit : SupervisorExit)
  | sending (exit : SupervisorExit)
  | ended

/-- The supervisor after an action of a publication. -/
def Supervisor.afterPublishing (exit : SupervisorExit) : Option Call → Supervisor
  | some next => .publishing next exit
  | none => .sending exit

def Supervisor.hasEnded : Supervisor → Bool
  | .ended => true
  | _ => false

inductive SupervisorAction where
  | proceed
  /-- The spawn, a pipe or the stderr reader is refused. -/
  | refuse (error : String)
  | kill
  | reap (stderr : Except String String)

structure ExportState where
  progress : ExportProgress
  outputs : Outputs
  child : Child
  ready : Option (Except String Unit)
  completion : Option EncoderCompletion
  /-- Callers of `cancel` whose compare-and-exchange failed. -/
  refusedCallers : ℕ
  /-- Callers of `cancel` that are about to set the flag. -/
  acceptedCallers : ℕ
  worker : Worker
  supervisor : Supervisor

namespace ExportState

/-- The start of an export over the files that are already there. -/
def start (outputs : Outputs) : ExportState where
  progress := .new
  outputs := outputs
  child := .absent
  ready := none
  completion := none
  refusedCallers := 0
  acceptedCallers := 0
  worker := .check .setup
  supervisor := .absent

def workerStep (s : ExportState) (action : WorkerAction) : Option ExportState :=
  match s.worker, action with
  | .check point, .proceed =>
    if s.progress.cancel then some { s with worker := .cancelling (.publishCancelled false) }
    else some { s with worker := point.next }
  | .setup, .recheck => some { s with worker := .check .setup }
  | .setup, .proceed => some { s with worker := .check .beforeEncoder }
  | .setup, .fail error => some { s with worker := .returning (some error) }
  | .staging, .fail error => some { s with worker := .returning (some error) }
  | .staging, .proceed =>
    some { s with
      progress := { s.progress with
        encoderActive := true
        encoderCleanupComplete := false
        encoderFinishRequested := false }
      worker := .spawning }
  | .spawning, .proceed => some { s with worker := .awaitingReady, supervisor := .starting }
  | .spawning, .fail error =>
    some { s with
      progress := { s.progress with
        encoderActive := false
        encoderCleanupComplete := true }
      worker := .returning (some s!"failed to start encoder supervisor: {error}") }
  | .awaitingReady, .proceed =>
    match s.ready with
    | some (.ok _) => some { s with worker := .frames }
    | some (.error error) => some { s with worker := .joiningFailed error }
    | none => none
  | .joiningFailed error, .proceed =>
    if s.supervisor.hasEnded then some { s with worker := .returning (some error) }
    else none
  | .frames, .fail error => some { s with worker := .returning (some error) }
  | .frames, .leaveFrames writeError => some { s with worker := .finishing writeError }
  | .finishing writeError, .proceed =>
    some { s with
      progress := { s.progress with encoderFinishRequested := true }
      worker := .awaitingCompletion writeError }
  | .awaitingCompletion writeError, .proceed =>
    match s.completion with
    | some completion => some { s with worker := .joining writeError completion }
    | none => none
  | .joining writeError completion, .proceed =>
    if s.supervisor.hasEnded then some { s with worker := .joined writeError completion }
    else none
  | .joined writeError completion, .proceed =>
    if s.progress.cancel then some { s with worker := .cancelling (.publishCancelled true) }
    else some { s with worker := .results writeError completion }
  | .results writeError completion, .proceed =>
    match completionError writeError completion with
    | some error =>
      some { s with
        outputs := { s.outputs with video := false }
        worker := .returning (some error) }
    | none => some { s with worker := .check .beforeSidecars }
  | .writing sidecar, .proceed =>
    if sidecar.refuses s.outputs then none
    else
      some { s with
        outputs := sidecar.write s.outputs
        worker := sidecar.next }
  | .writing sidecar, .failVisible error =>
    if sidecar.refuses s.outputs then none
    else
      some { s with
        outputs := sidecar.write s.outputs
        worker := .returning (some error) }
  | .writing _, .fail error => some { s with worker := .returning (some error) }
  | .writing .gesture, .skip => some { s with worker := Sidecar.next .gesture }
  | .writing .performance, .skip => some { s with worker := Sidecar.next .performance }
  | .publishingAlpha, .proceed => some { s with worker := .returning none }
  | .publishingAlpha, .fail error => some { s with worker := .returning (some error) }
  | .cancelling call, .proceed =>
    (call.step .worker s.progress s.outputs).map fun (p, outputs, next) =>
      { s with
        progress := p
        outputs := outputs
        worker := .afterCancelling next }
  | .returning workerError, .proceed =>
    some { s with worker := .finalizing (.finalize workerError) }
  | .finalizing call, .proceed =>
    (call.step .worker s.progress s.outputs).map fun (p, outputs, next) =>
      { s with
        progress := p
        outputs := outputs
        worker := .afterFinalizing next }
  | worker, .unwind detail =>
    if worker.canUnwind then
      some { s with worker := .returning (some s!"export worker panicked: {detail}") }
    else none
  | _, _ => none

def supervisorStep (s : ExportState) (action : SupervisorAction) : Option ExportState :=
  match s.supervisor, action with
  | .starting, .proceed =>
    if s.progress.cancel then
      some { s with
        supervisor := .deactivating (.withoutChild "export cancelled before encoder startup") }
    else some { s with supervisor := .spawning }
  | .spawning, .proceed => some { s with child := .running, supervisor := .claiming }
  | .spawning, .refuse error =>
    some { s with supervisor := .deactivating (.withoutChild s!"Failed to spawn ffmpeg: {error}") }
  | .claiming, .proceed =>
    some { s with
      progress := { s.progress with outputStarted := true }
      supervisor := .clearing }
  | .clearing, .proceed =>
    some { s with
      outputs := { s.outputs with
        gestureSidecar := false
        performanceSidecar := false }
      supervisor := .piping }
  | .piping, .proceed => some { s with supervisor := .readying }
  | .piping, .refuse error => some { s with supervisor := .forceReaping error }
  | .readying, .proceed =>
    match s.worker with
    | .awaitingReady => some { s with ready := some (.ok ()), supervisor := .waiting }
    | _ =>
      some { s with
        progress := s.progress.requestCancel
        supervisor := .waiting }
  | .waiting, .kill =>
    if s.progress.cancel || s.progress.abort then some { s with child := s.child.kill }
    else none
  | .waiting, .reap stderr =>
    match s.child with
    | .exited success =>
      some { s with
        child := .reaped
        supervisor := .deactivating (.reaped ⟨.ok success, stderr⟩) }
    | _ => none
  | .forceReaping _, .kill => some { s with child := s.child.kill }
  | .forceReaping error, .reap _ =>
    match s.child with
    | .exited _ =>
      some { s with
        child := .reaped
        supervisor := .deactivating (.broken error) }
    | _ => none
  | .deactivating exit, .proceed =>
    some { s with
      progress := { s.progress with encoderActive := false }
      supervisor := .completing exit }
  | .completing exit, .proceed =>
    some { s with
      progress := { s.progress with encoderCleanupComplete := true }
      supervisor := .settling exit }
  | .settling (.withoutChild error), .proceed =>
    if s.progress.cancel then
      some { s with supervisor := .publishing (.publishCancelled false) (.withoutChild error) }
    else some { s with supervisor := .publishing (.finalize (some error)) (.withoutChild error) }
  | .settling (.broken error), .proceed =>
    some { s with supervisor := .publishing (.finalize (some error)) (.broken error) }
  | .settling (.reaped completion), .proceed =>
    if s.progress.cancel then
      some { s with supervisor := .publishing (.publishCancelled true) (.reaped completion) }
    else some { s with supervisor := .loadingAbort completion }
  | .loadingAbort completion, .proceed =>
    if s.progress.abort then some { s with supervisor := .takingPending completion }
    else some { s with supervisor := .loadingFinish completion }
  | .takingPending completion, .proceed =>
    some { s with
      progress := { s.progress with pendingWorkerError := none }
      supervisor := .publishing
        (.finalize (some (s.progress.pendingWorkerError.getD "export worker aborted unexpectedly")))
        (.reaped completion) }
  | .loadingFinish completion, .proceed =>
    if s.progress.encoderFinishRequested then
      some { s with supervisor := .sending (.reaped completion) }
    else
      some { s with
        supervisor := .publishing
          (.finalize (some "export worker ended before closing the encoder cleanly"))
          (.reaped completion) }
  | .publishing call exit, .proceed =>
    (call.step .supervisor s.progress s.outputs).map
      fun (p, outputs, next) =>
        { s with
          progress := p
          outputs := outputs
          supervisor := .afterPublishing exit next }
  | .sending (.withoutChild error), .proceed
  | .sending (.broken error), .proceed =>
    some { s with ready := some (.error error), supervisor := .ended }
  | .sending (.reaped completion), .proceed =>
    some { s with completion := some completion, supervisor := .ended }
  | _, _ => none

end ExportState

inductive ExportLabel where
  | cancelCompareExchange | cancelLoad | cancelStore
  | worker (action : WorkerAction)
  | supervisor (action : SupervisorAction)
  | encoderWrites
  | encoderExits (success : Bool)

/-- One atomic action.  The first three are those of `request_cancel` by any
of its callers. -/
def exportStep (s : ExportState) : ExportLabel → Option ExportState
  | .cancelCompareExchange =>
    match s.progress.compareExchange .running .cancelRequested with
    | .ok p => some { s with
        progress := p
        acceptedCallers := s.acceptedCallers + 1 }
    | .error _ => some { s with refusedCallers := s.refusedCallers + 1 }
  | .cancelLoad =>
    if s.refusedCallers = 0 then none
    else if s.progress.outcome = .cancelRequested then
      some { s with
        refusedCallers := s.refusedCallers - 1
        acceptedCallers := s.acceptedCallers + 1 }
    else some { s with refusedCallers := s.refusedCallers - 1 }
  | .cancelStore =>
    if s.acceptedCallers = 0 then none
    else
      some { s with
        progress := { s.progress with cancel := true }
        acceptedCallers := s.acceptedCallers - 1 }
  | .worker action => s.workerStep action
  | .supervisor action => s.supervisorStep action
  | .encoderWrites =>
    match s.child with
    | .running => some { s with outputs := { s.outputs with video := true } }
    | _ => none
  | .encoderExits success =>
    match s.child with
    | .running => some { s with child := .exited success }
    | _ => none

/-- An export over any files that are already there. -/
def exportMachine : Machine ExportState ExportLabel where
  start s := ∃ outputs, s = .start outputs
  step := exportStep

end CollideOScope.Export
