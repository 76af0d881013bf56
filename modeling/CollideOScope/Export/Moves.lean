import CollideOScope.Export.Threads

/-!
# What a move of a thread can do

The invariants of the export protocol do not look at the code of the threads.
They use the facts of this file: how a call goes on, what the worker changes
when it moves, and what the supervisor changes when it moves.
-/

namespace CollideOScope.Export

open Option Call ExportProgress

/-- The fields that the publication of the outcome is about. -/
structure Verdict where
  (cancel done : Bool)
  outcome : Outcome
  terminal : Option Thread

def ExportProgress.verdict (p : ExportProgress) : Verdict :=
  ⟨p.cancel, p.done, p.outcome, p.terminal⟩

@[simp]
def Entry.withholdsPath : Entry → Bool
  | .finalize _ => false
  | .publishCancelled outputPath => !outputPath

@[simp]
def Entry.isClean : Entry → Bool
  | .finalize workerError => workerError.isNone
  | .publishCancelled _ => false

namespace Call

/-- The call has passed the test of the encoder flags. -/
@[simp]
def isPastGate : Call → Bool
  | .loadActive _ | .loadCleanup _ | .storePending _ | .storeAbort => false
  | _ => true

/-- The call found the encoder owned when it read the first flag. -/
@[simp]
def sawActive : Call → Bool
  | .loadCleanup _ | .storePending _ | .storeAbort => true
  | _ => false

/-- The call leaves its error to the supervisor. -/
@[simp]
def handsOver : Call → Bool
  | .storePending _ | .storeAbort => true
  | _ => false

@[simp]
def isClean : Call → Bool
  | .loadActive workerError | .loadCleanup workerError => workerError.isNone
  | .lock entry | .loadDone entry | .loadOutcome entry => entry.isClean
  | .commitSucceeded => true
  | _ => false

/-- The call would remove the outputs without a path. -/
@[simp]
def withholdsPath : Call → Bool
  | .lock entry | .loadDone entry | .loadOutcome entry => entry.withholdsPath
  | .remove outputPath _ => !outputPath
  | _ => false

/-- A call that has just begun, with the cancel flag its caller saw. -/
def IsFresh (cancel : Bool) (c : Call) : Prop :=
  (∃ workerError, c = .finalize workerError) ∨
    cancel = true ∧ ∃ outputPath, c = .publishCancelled outputPath

section

variable {thread : Thread} {p p' : ExportProgress} {o o' : Outputs}
  {c next : Call} {rest : Option Call}

theorem step_frame (h : c.step thread p o = some (p', o', rest)) :
    p'.outputStarted = p.outputStarted ∧
      p'.encoderActive = p.encoderActive ∧
      p'.encoderCleanupComplete = p.encoderCleanupComplete ∧
      p'.encoderFinishRequested = p.encoderFinishRequested := by
  cases c <;>
    simp only [step, proceedWith, ExportProgress.compareExchange] at h <;>
    grind [ExportProgress.unlock, decide]

theorem step_isClean (h : c.step thread p o = some (p', o', some next))
    (hnext : next.isClean) : c.isClean := by
  cases c with
  | loadOutcome entry =>
    cases entry with
    | finalize workerError =>
      cases workerError with
      | none => rfl
      | some error =>
        cases hout : p.outcome <;>
          simp only [step, hout, decide, proceedWith] at h <;>
          cases h <;> cases hnext
    | publishCancelled outputPath =>
      simp only [step] at h
      split at h <;> cases h
      cases hnext
  | commitFailed error =>
    cases hout : p.outcome <;>
      simp [step, ExportProgress.compareExchange, hout, decide, proceedWith] at h <;>
      simp [← h.2.2] at hnext
  | _ =>
    simp only [step, ExportProgress.compareExchange] at h
    grind [isClean, Entry.isClean]

structure Continues (p : ExportProgress) (c next : Call) : Prop where
  /-- It passes the gate once the encoder is not owned. -/
  isPastGate : next.isPastGate → c.isPastGate ∨ p.encoderActive = false ∨
    p.encoderCleanupComplete = true
  sawActive : next.sawActive → c.sawActive ∨ p.encoderActive = true
  /-- It leaves its error to the supervisor only if the cleanup is open. -/
  handsOver : next.handsOver → c.handsOver ∨ c.sawActive ∧ p.encoderCleanupComplete = false
  isClean : next.isClean → c.isClean
  withholdsPath : next.withholdsPath → c.withholdsPath

theorem step_continues (h : c.step thread p o = some (p', o', some next)) : Continues p c next := by
  constructor
  case isClean => exact step_isClean h
  all_goals
    cases c <;>
      simp only [step, proceedWith, ExportProgress.compareExchange] at h <;>
      grind [decide, isPastGate, sawActive, handsOver, withholdsPath,
        Entry.withholdsPath, cases Outcome]

theorem step_succeeded (h : c.step thread p o = some (p', o', rest))
    (hsucc : p'.outcome = .succeeded) :
    p.outcome = .succeeded ∨ c = .commitSucceeded ∧ rest = some .storeDone := by
  cases c <;>
    simp only [step, proceedWith, ExportProgress.compareExchange] at h <;>
    grind [ExportProgress.unlock]

end

end Call

namespace Worker

@[simp]
def isPreparing : Worker → Bool
  | .check .setup | .check .beforeEncoder | .setup | .staging | .spawning => true
  | _ => false

/-- In `run_export` after the supervisor thread was joined. -/
@[simp]
def hasJoined : Worker → Bool
  | .joined _ _ | .results _ _ | .check .beforeSidecars
  | .check .afterSidecars | .writing _ | .publishingAlpha => true
  | _ => false

/-- Past the last removal of the video by the worker itself. -/
@[simp]
def isLate : Worker → Bool
  | .check .beforeSidecars | .check .afterSidecars | .writing _
  | .publishingAlpha | .cancelling _ | .returning _ | .finalizing _
  | .ended => true
  | _ => false

@[simp]
def call : Worker → Option Call
  | .cancelling c | .finalizing c => some c
  | _ => none

/-- Past `run_export` with no error. -/
@[simp]
def isSucceeding : Worker → Bool
  | .returning workerError => workerError.isNone
  | .finalizing c => c.isClean
  | _ => false

@[simp]
def hasParted : Worker → Bool
  | .finalizing c => c.handsOver
  | .ended => true
  | _ => false

@[simp]
def hasCommitted : Worker → Bool
  | .finalizing .storeDone | .ended => true
  | _ => false

@[simp]
theorem afterCancelling_call (rest : Option Call) : (afterCancelling rest).call = rest := by
  cases rest with
  | none | some next => rfl

@[simp]
theorem afterFinalizing_call (rest : Option Call) : (afterFinalizing rest).call = rest := by
  cases rest with
  | none | some next => rfl

end Worker

/-- The actions of the worker that put a sidecar in place. -/
@[simp]
def WorkerAction.writes : WorkerAction → Bool
  | .proceed | .failVisible _ => true
  | _ => false

/-- A move of the worker outside its calls, other than the last one of
`start_encoder_supervisor` before it waits. -/
structure WorkerFlow (action : WorkerAction) (s t : ExportState) : Prop where
  supervisor : t.supervisor = s.supervisor
  child : t.child = s.child
  ready : t.ready = s.ready
  completion : t.completion = s.completion
  acceptedCallers : t.acceptedCallers = s.acceptedCallers
  verdict : t.progress.verdict = s.progress.verdict
  outputStarted : t.progress.outputStarted = s.progress.outputStarted
  idle : s.worker.call = none
  fresh : ∀ c, t.worker.call = some c → c.IsFresh s.progress.cancel
  gate : ∀ c, t.worker = .finalizing c → ∃ workerError, c = .finalize workerError
  preparing : t.worker.isPreparing → s.worker.isPreparing
  answered : s.worker = .awaitingReady → s.ready ≠ none
  completed : ∀ writeError, s.worker = .awaitingCompletion writeError → s.completion ≠ none
  joined : t.worker.hasJoined → s.worker.hasJoined ∨ s.supervisor = .ended
  cancelling : ∀ c, t.worker = .cancelling c →
    s.progress.cancel = true ∧ (s.worker.isPreparing ∨ s.worker.hasJoined)
  succeeding : t.worker.isSucceeding → s.worker.isSucceeding ∨ s.worker.hasJoined
  present : s.worker ≠ .ended ∧ t.worker ≠ .ended
  late : s.worker.isLate → t.worker.isLate
  notSpawning : s.worker ≠ .spawning
  staged : t.worker = .spawning → t.progress.encoderActive = true ∧
    t.progress.encoderCleanupComplete = false ∧
    t.progress.encoderFinishRequested = false
  flags : t.worker ≠ .spawning →
    t.progress.encoderActive = s.progress.encoderActive ∧
    t.progress.encoderCleanupComplete = s.progress.encoderCleanupComplete
  finish : t.progress.encoderFinishRequested →
    s.progress.encoderFinishRequested ∨ ∃ writeError, t.worker = .awaitingCompletion writeError
  finishKept : s.progress.encoderFinishRequested →
    t.progress.encoderFinishRequested ∨ t.worker = .spawning
  outputs : t.outputs = s.outputs ∨
    (s.worker.isLate = false ∧ t.outputs = { s.outputs with video := false }) ∨
    ∃ sidecar, s.worker = .writing sidecar ∧ action.writes ∧ t.outputs = sidecar.write s.outputs

namespace WorkerFlow

variable {action : WorkerAction} {s t : ExportState}

theorem cancel (h : WorkerFlow action s t) : t.progress.cancel = s.progress.cancel :=
  congrArg Verdict.cancel h.verdict

theorem done (h : WorkerFlow action s t) : t.progress.done = s.progress.done :=
  congrArg Verdict.done h.verdict

theorem outcome (h : WorkerFlow action s t) : t.progress.outcome = s.progress.outcome :=
  congrArg Verdict.outcome h.verdict

end WorkerFlow

inductive WorkerMove (action : WorkerAction) (s : ExportState) : ExportState → Prop
  | flow {t : ExportState} (flow : WorkerFlow action s t) : WorkerMove action s t
  | started (worker : s.worker = .spawning) :
      WorkerMove action s { s with worker := .awaitingReady, supervisor := .starting }
  | refused (worker : s.worker = .spawning) (error : String) :
      WorkerMove action s
        { s with
          progress := { s.progress with
            encoderActive := false
            encoderCleanupComplete := true }
          worker := .returning (some error) }
  | cancelling {c : Call} {p : ExportProgress} {outputs : Outputs}
      {rest : Option Call} (worker : s.worker = .cancelling c)
      (proceeds : action = .proceed)
      (call : c.step .worker s.progress s.outputs = some (p, outputs, rest)) :
      WorkerMove action s
        { s with
          progress := p
          outputs := outputs
          worker := .afterCancelling rest }
  | finalizing {c : Call} {p : ExportProgress} {outputs : Outputs}
      {rest : Option Call} (worker : s.worker = .finalizing c)
      (call : c.step .worker s.progress s.outputs = some (p, outputs, rest)) :
      WorkerMove action s
        { s with
          progress := p
          outputs := outputs
          worker := .afterFinalizing rest }

@[simp]
theorem Supervisor.hasEnded_iff {supervisor : Supervisor} :
    supervisor.hasEnded ↔ supervisor = .ended := by
  cases supervisor <;> simp [Supervisor.hasEnded]

theorem Worker.canUnwind_spec {worker : Worker} (h : worker.canUnwind) :
    worker.call = none ∧ worker ≠ .awaitingReady ∧ worker ≠ .spawning ∧
      worker ≠ .ended ∧
      ∀ writeError, worker ≠ .awaitingCompletion writeError := by
  cases worker <;> simp_all [Worker.canUnwind]

theorem workerMove {s t : ExportState} {action : WorkerAction}
    (hstep : s.workerStep action = some t) : WorkerMove action s t := by
  unfold ExportState.workerStep at hstep
  split at hstep
  case h_7 hworker =>
    cases hstep
    exact .started hworker
  case h_8 hworker =>
    cases hstep
    exact .refused hworker _
  case h_25 hworker =>
    simp only [map_eq_some_iff] at hstep
    obtain ⟨⟨p, outputs, rest⟩, hcall, rfl⟩ := hstep
    exact .cancelling hworker rfl hcall
  case h_27 hworker =>
    simp only [map_eq_some_iff] at hstep
    obtain ⟨⟨p, outputs, rest⟩, hcall, rfl⟩ := hstep
    exact .finalizing hworker hcall
  case h_1 point hworker =>
    split at hstep <;> cases hstep <;> cases point <;> refine .flow ?_ <;>
      constructor <;> simp_all [Check.next, Call.IsFresh]
  case h_28 =>
    split at hstep
    · rename_i hunwind
      cases hstep
      have hplace := Worker.canUnwind_spec hunwind
      refine .flow ?_
      constructor <;> simp_all
    · contradiction
  case h_26 hworker =>
    cases hstep
    refine .flow ?_
    constructor <;> simp_all [IsFresh, finalize]
  case h_18 sidecar hworker =>
    split at hstep <;> cases hstep
    cases sidecar <;> refine .flow ?_ <;> constructor <;>
      simp_all [Sidecar.next]
  all_goals try split at hstep
  all_goals try contradiction
  all_goals
    cases hstep
    refine .flow ?_
    constructor <;>
      simp_all [IsFresh, Sidecar.next, verdict]

/-- The exits at which the worker still waits for an answer. -/
@[simp]
def SupervisorExit.isOpening : SupervisorExit → Bool
  | .withoutChild _ | .broken _ => true
  | .reaped _ => false

@[simp]
def SupervisorExit.child : SupervisorExit → Child
  | .withoutChild _ => .absent
  | .broken _ | .reaped _ => .reaped

variable {child : Child}

@[simp]
theorem Child.kill_eq_absent : child.kill = .absent ↔ child = .absent := by
  cases child <;> simp [Child.kill]

@[simp]
theorem Child.kill_eq_reaped : child.kill = .reaped ↔ child = .reaped := by
  cases child <;> simp [Child.kill]

namespace Supervisor

@[simp]
def isOpening : Supervisor → Bool
  | .starting | .spawning | .claiming | .clearing | .piping | .readying
  | .forceReaping _ => true
  | .deactivating exit | .completing exit | .settling exit
  | .publishing _ exit | .sending exit => exit.isOpening
  | _ => false

@[simp]
def ownsEncoder : Supervisor → Bool
  | .starting | .spawning | .claiming | .clearing | .piping | .readying
  | .waiting | .forceReaping _ | .deactivating _ => true
  | _ => false

@[simp]
def hasSettled : Supervisor → Bool
  | .sending _ | .ended => true
  | _ => false

@[simp]
def call : Supervisor → Option Call
  | .publishing c _ => some c
  | _ => none

@[simp]
theorem afterPublishing_call (exit : SupervisorExit) (rest : Option Call) :
    (afterPublishing exit rest).call = rest := by
  cases rest with
  | none | some next => rfl

end Supervisor

@[simp]
def Supervisor.Holds (child : Child) : Supervisor → Prop
  | .absent | .starting | .spawning => child = .absent
  | .claiming | .clearing | .piping | .readying | .waiting
  | .forceReaping _ => child ≠ .absent ∧ child ≠ .reaped
  | .deactivating exit | .completing exit | .settling exit
  | .publishing _ exit | .sending exit => child = exit.child
  | .loadingAbort _ | .takingPending _ | .loadingFinish _ => child = .reaped
  | .ended => child = .absent ∨ child = .reaped

def Supervisor.Flags (supervisor : Supervisor) (p : ExportProgress) : Prop :=
  p.encoderActive = supervisor.ownsEncoder ∧
    (p.encoderCleanupComplete = false ↔
      supervisor.ownsEncoder ∨ ∃ exit, supervisor = .completing exit)

def Supervisor.Claims (supervisor : Supervisor) (child : Child) (p : ExportProgress) : Prop :=
  p.outputStarted ↔ child ≠ .absent ∧ supervisor ≠ .claiming

/-- A move of the supervisor outside its calls. -/
structure SupervisorFlow (s t : ExportState) : Prop where
  worker : t.worker = s.worker
  acceptedCallers : t.acceptedCallers = s.acceptedCallers
  verdict : t.progress.verdict = s.progress.verdict
  finish : t.progress.encoderFinishRequested = s.progress.encoderFinishRequested
  idle : s.supervisor.call = none
  fresh : ∀ c, t.supervisor.call = some c → c.IsFresh s.progress.cancel
  reports : ∀ c, t.supervisor.call = some c → c.isClean = false
  withholds : ∀ c exit, t.supervisor = .publishing c exit →
    c.withholdsPath → ∃ error, exit = .withoutChild error
  present : s.supervisor ≠ .absent ∧ s.supervisor ≠ .ended
  remains : t.supervisor ≠ .absent
  opening : t.supervisor.isOpening → s.supervisor.isOpening ∧ t.ready = s.ready
  completion : t.completion = s.completion ∨ t.supervisor = .ended
  owns : t.supervisor.ownsEncoder → s.supervisor.ownsEncoder
  settled : t.supervisor.hasSettled → s.supervisor.hasSettled ∨ s.progress.encoderFinishRequested
  flags : s.supervisor.Flags s.progress → t.supervisor.Flags t.progress
  child : s.supervisor.Holds s.child → t.supervisor.Holds t.child
  childKept : s.supervisor.ownsEncoder = false → t.child = s.child
  claims : s.supervisor.Holds s.child →
    s.supervisor.Claims s.child s.progress →
    t.supervisor.Claims t.child t.progress
  outputs : t.outputs = s.outputs ∨
    t.outputs = { s.outputs with
      gestureSidecar := false
      performanceSidecar := false }

namespace SupervisorFlow

variable {s t : ExportState}

theorem cancel (h : SupervisorFlow s t) : t.progress.cancel = s.progress.cancel :=
  congrArg Verdict.cancel h.verdict

theorem done (h : SupervisorFlow s t) : t.progress.done = s.progress.done :=
  congrArg Verdict.done h.verdict

theorem outcome (h : SupervisorFlow s t) : t.progress.outcome = s.progress.outcome :=
  congrArg Verdict.outcome h.verdict

end SupervisorFlow

inductive SupervisorMove (s : ExportState) : ExportState → Prop
  | flow {t : ExportState} (flow : SupervisorFlow s t) : SupervisorMove s t
  | publishing {c : Call} {exit : SupervisorExit} {p : ExportProgress}
      {outputs : Outputs} {rest : Option Call}
      (supervisor : s.supervisor = .publishing c exit)
      (call : c.step .supervisor s.progress s.outputs = some (p, outputs, rest)) :
      SupervisorMove s
        { s with
          progress := p
          outputs := outputs
          supervisor := .afterPublishing exit rest }

theorem supervisorMove {s t : ExportState} {action : SupervisorAction}
    (hready : s.supervisor = .readying → s.worker = .awaitingReady)
    (hstep : s.supervisorStep action = some t) : SupervisorMove s t := by
  unfold ExportState.supervisorStep at hstep
  split at hstep
  case h_21 hsupervisor =>
    simp only [map_eq_some_iff] at hstep
    obtain ⟨⟨p, outputs, rest⟩, hcall, rfl⟩ := hstep
    exact .publishing hsupervisor hcall
  all_goals try split at hstep
  all_goals try contradiction
  all_goals
    cases hstep
    refine .flow ?_
    constructor <;>
      simp_all [IsFresh, verdict, Supervisor.Claims, Supervisor.Flags, finalize, publishCancelled]

/-- A step of the machine, with the guards of the callers of `cancel` and of
the encoder. -/
inductive ExportMove (s : ExportState) : ExportLabel → ExportState → Prop
  | accept (running : s.progress.outcome = .running) :
      ExportMove s .cancelCompareExchange
        { s with
          progress := { s.progress with outcome := .cancelRequested }
          acceptedCallers := s.acceptedCallers + 1 }
  | refuse : ExportMove s .cancelCompareExchange { s with refusedCallers := s.refusedCallers + 1 }
  | join (requested : s.progress.outcome = .cancelRequested) :
      ExportMove s .cancelLoad
        { s with
          refusedCallers := s.refusedCallers - 1
          acceptedCallers := s.acceptedCallers + 1 }
  | leave : ExportMove s .cancelLoad { s with refusedCallers := s.refusedCallers - 1 }
  | raise (accepted : 0 < s.acceptedCallers) :
      ExportMove s .cancelStore
        { s with
          progress := { s.progress with cancel := true }
          acceptedCallers := s.acceptedCallers - 1 }
  | worker {action : WorkerAction} {t : ExportState}
      (step : s.workerStep action = some t) :
      ExportMove s (.worker action) t
  | supervisor {action : SupervisorAction} {t : ExportState}
      (step : s.supervisorStep action = some t) :
      ExportMove s (.supervisor action) t
  | write (running : s.child = .running) :
      ExportMove s .encoderWrites { s with outputs := { s.outputs with video := true } }
  | exit (running : s.child = .running) (success : Bool) :
      ExportMove s (.encoderExits success) { s with child := .exited success }

theorem exportMove {s t : ExportState} {label : ExportLabel}
    (hstep : exportStep s label = some t) : ExportMove s label t := by
  cases label with simp only [exportStep] at hstep
  | cancelCompareExchange =>
    simp only [compareExchange] at hstep
    by_cases hrun : s.progress.outcome = .running
    · rw [if_pos hrun] at hstep
      cases hstep
      exact .accept hrun
    · rw [if_neg hrun] at hstep
      cases hstep
      exact .refuse
  | cancelLoad =>
    by_cases hnone : s.refusedCallers = 0
    · rw [if_pos hnone] at hstep
      cases hstep
    · rw [if_neg hnone] at hstep
      by_cases hreq : s.progress.outcome = .cancelRequested
      · rw [if_pos hreq] at hstep
        cases hstep
        exact .join hreq
      · rw [if_neg hreq] at hstep
        cases hstep
        exact .leave
  | cancelStore =>
    by_cases hnone : s.acceptedCallers = 0
    · rw [if_pos hnone] at hstep
      cases hstep
    · rw [if_neg hnone] at hstep
      cases hstep
      exact .raise (Nat.pos_of_ne_zero hnone)
  | worker action => exact .worker hstep
  | supervisor action => exact .supervisor hstep
  | encoderWrites =>
    split at hstep
    · rename_i hrun
      cases hstep
      exact .write hrun
    · contradiction
  | encoderExits success =>
    split at hstep
    · rename_i hrun
      cases hstep
      exact .exit hrun success
    · contradiction

end CollideOScope.Export
