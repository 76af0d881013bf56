import CollideOScope.Recovery.Writer

/-!
# Conservation of recovery requests

Every accepted request is, at any moment, exactly one of: completed,
superseded, failed, pending or in flight.  The invariant ties the in-flight
marker to the worker's phase, so the section that clears the marker is also the
one that counts the request.
-/

namespace CollideOScope.Recovery

open WriterHistory Option Bool RecoveryWriterShared

variable {Patch : Type}

/-- The balance of the request counters, below saturation. -/
def Conserved (shared : RecoveryWriterShared Patch) (completed : ℕ) : Prop :=
  shared.submittedRequests < u64Max →
    shared.submittedRequests =
      completed + shared.supersededRequests + shared.failedRequests +
        shared.pending.isSome.toNat + shared.inFlightRequestId.isSome.toNat

/-- The in-flight marker names exactly the request the worker holds. -/
def WorkerPhase.Marks : WorkerPhase Patch → Option UInt64 → Prop
  | .calling request, marker => marker = some request.id
  | .succeeded request _, marker => marker = some request.id
  | .failed request _, marker => marker = some request.id
  | .unwinding, _ => True
  | _, marker => marker = none

def WorkerPhase.Healthy (phase : WorkerPhase Patch) : Prop :=
  phase ≠ .stopped .factoryFailed ∧ phase ≠ .stopped .panicked

structure WriterInvariant (s : WriterState Patch) (history : WriterHistory) : Prop where
  conserved : Conserved s.shared history.completed
  marks : s.worker.Marks s.shared.inFlightRequestId
  jobs : s.shared.maxObservedJobs ≤ recoveryWriterMaxJobs
  stopped : s.shared.workerStopped = true ↔ ∃ cause, s.worker = .stopped cause
  quiet : s.shared.workerStopped = true → s.shared.pending = none ∧ s.shared.accepting = false
  newest : ∀ request, s.shared.pending = some request → history.accepted.head? = some request.id
  handed : s.shared.pending = none → s.worker.Healthy →
    history.accepted.head? = history.handed.head?

section

variable {shared : RecoveryWriterShared Patch} {completed : ℕ}

variable (h : Conserved shared completed)
include h

theorem Conserved.request (hopen : shared.accepting = true)
    (request : RecoveryWriterRequest Patch) :
    Conserved (shared.request request).2 completed := by
  unfold Conserved at h ⊢
  simp only [RecoveryWriterShared.request, hopen, if_true, isSome_map]
  intro hlt
  have hbelow : shared.submittedRequests + 1 ≤ u64Max := by
    unfold saturatingAddU64 at hlt
    unfold u64Max at *
    omega
  have hsum := h (Nat.lt_of_succ_le hbelow)
  rw [saturatingAddU64_of_le hbelow]
  by_cases hpend : shared.pending.isSome = true
  · simp only [hpend, toNat_true, if_true, isSome_some] at hsum ⊢
    have hfits : shared.supersededRequests + 1 ≤ u64Max := by omega
    rw [saturatingAddU64_of_le hfits]
    omega
  · simp only [hpend, toNat_false, isSome_some, toNat_true, false_eq_true, if_false] at hsum ⊢
    omega

theorem Conserved.factoryFailed (error : RecoveryJournalError) :
    Conserved (shared.factoryFailed error) completed := by
  unfold Conserved at h ⊢
  simp only [RecoveryWriterShared.factoryFailed]
  intro hlt
  have hsum := h hlt
  by_cases hpend : shared.pending.isSome = true
  · simp only [hpend, if_true, toNat_true, isSome_none, toNat_false] at hsum ⊢
    have hfits : shared.failedRequests + 1 ≤ u64Max := by omega
    rw [saturatingAddU64_of_le hfits]
    omega
  · simp only [hpend, toNat_false, false_eq_true, if_false, isSome_none] at hsum ⊢
    omega

theorem Conserved.take (hmarker : shared.inFlightRequestId = none)
    {request : RecoveryWriterRequest Patch} (hpend : shared.pending = some request) :
    Conserved (shared.take request) completed := by
  intro hlt
  have hsum := h hlt
  simp only [hmarker, hpend, isSome_some, isSome_none, toNat_true, toNat_false] at hsum
  exact hsum

theorem Conserved.complete {id : UInt64} (hmarker : shared.inFlightRequestId = some id)
    {next : RecoveryWriterShared Patch}
    (hsubmitted : next.submittedRequests = shared.submittedRequests)
    (hsuperseded : next.supersededRequests = shared.supersededRequests)
    (hfailed : next.failedRequests = shared.failedRequests) (hpend : next.pending = shared.pending)
    (hclr : next.inFlightRequestId = none) :
    Conserved next (completed + 1) := by
  intro hlt
  rw [hsubmitted] at hlt
  have hsum := h hlt
  rw [hmarker, isSome_some, toNat_true] at hsum
  rw [hsubmitted, hsuperseded, hfailed, hpend, hclr, hsum, isSome_none, toNat_false]
  omega

theorem Conserved.recordFailure {request : RecoveryWriterRequest Patch}
    (hmarker : shared.inFlightRequestId = some request.id) (error : RecoveryJournalError) :
    Conserved (shared.recordFailure request error) completed := by
  unfold Conserved at h ⊢
  simp only [RecoveryWriterShared.recordFailure]
  intro hlt
  have hsum := h hlt
  rw [hmarker, isSome_some, toNat_true] at hsum
  have hfits : shared.failedRequests + 1 ≤ u64Max := by omega
  rw [saturatingAddU64_of_le hfits, isSome_none, toNat_false]
  omega

theorem Conserved.panicked : Conserved shared.panicked completed := by
  unfold Conserved at h ⊢
  simp only [RecoveryWriterShared.panicked, isSome_map, isSome_none, toNat_false, isSome_or]
  intro hlt
  have hsum := h hlt
  by_cases hany : (shared.pending.isSome ||
      shared.inFlightRequestId.isSome) = true
  · rw [if_pos hany]
    have hfits : shared.failedRequests +
        (shared.inFlightRequestId.isSome.toNat + shared.pending.isSome.toNat) ≤ u64Max := by
      omega
    rw [saturatingAddU64_of_le hfits]
    omega
  · rw [if_neg hany]
    obtain ⟨hpend, hmarker⟩ := or_eq_false_iff.mp (eq_false_of_not_eq_true hany)
    rw [hpend, hmarker] at hsum
    simpa using hsum

end

section

variable {s t : WriterState Patch} {history : WriterHistory}

theorem WriterInvariant.start {s : WriterState Patch} (h : (writerMachine Patch).start s) :
    WriterInvariant s ⟨0, [], []⟩ := by
  obtain rfl : s = ⟨default, 1, [], .starting⟩ := h
  constructor
  · exact fun _ => rfl
  · rfl
  · exact Nat.zero_le _
  · simp [RecoveryWriterShared.default]
  · nofun
  · nofun
  · exact fun _ _ => rfl

section

variable (hinv : WriterInvariant s history) {success : RecoveryWorkerSuccess}
  {error : RecoveryJournalError}
include hinv

theorem WriterInvariant.of_worker {phase : WorkerPhase Patch}
    (hworker : s.worker = phase) (hph : ∀ cause, phase ≠ .stopped cause) :
    phase.Marks s.shared.inFlightRequestId ∧
      s.shared.workerStopped = false ∧
      (s.shared.pending = none → history.accepted.head? = history.handed.head?) := by
  subst hworker
  refine ⟨hinv.marks, ?_, ?_⟩
  · apply eq_false_of_not_eq_true
    intro hstop
    obtain ⟨cause, hcause⟩ := hinv.stopped.mp hstop
    exact hph cause hcause
  · intro hpend
    exact hinv.handed hpend ⟨hph _, hph _⟩

theorem WriterInvariant.move {phase phase' : WorkerPhase Patch} (hworker : s.worker = phase)
    (hph : ∀ cause, phase ≠ .stopped cause) (hphase' : ∀ cause, phase' ≠ .stopped cause)
    (hmarks : phase.Marks s.shared.inFlightRequestId → phase'.Marks s.shared.inFlightRequestId) :
    WriterInvariant { s with worker := phase' } history := by
  obtain ⟨hold, hrun, hhanded⟩ := hinv.of_worker hworker hph
  refine ⟨hinv.conserved, hmarks hold, hinv.jobs, ?_, hinv.quiet, hinv.newest,
    fun hpend _ => hhanded hpend⟩
  simp [hrun, hphase']

theorem WriterInvariant.request {caller : ℕ} {request : RecoveryWriterRequest Patch}
    (hcaller : s.callers[caller]? = some request) :
    WriterInvariant
      { s with
        shared := (s.shared.request request).2
        callers := s.callers.eraseIdx caller }
      (history.next s (.request caller)) := by
  by_cases hopen : s.shared.accepting = true
  · have hrun : s.shared.workerStopped = false := by
      apply eq_false_of_not_eq_true
      intro hstop
      rw [(hinv.quiet hstop).2] at hopen
      cases hopen
    have hnext : history.next s (.request caller) =
        { history with accepted := request.id :: history.accepted } := by
      simp [next, hcaller, RecoveryWriterShared.request, hopen]
    have hconserved := hinv.conserved.request hopen request
    rw [hnext]
    simp only [RecoveryWriterShared.request, hopen, if_true] at hconserved ⊢
    refine ⟨hconserved, hinv.marks, ?_, hinv.stopped, ?_, ?_, nofun⟩
    · have hjobs := hinv.jobs
      have hbit := s.shared.inFlightRequestId.isSome.toNat_le
      simp only [recoveryWriterMaxJobs] at hjobs ⊢
      omega
    · intro hstop
      rw [hrun] at hstop
      cases hstop
    · intro newest hnew
      cases hnew
      rfl
  · have hnext : history.next s (.request caller) = history := by
      simp [next, hcaller, RecoveryWriterShared.request, hopen]
    rw [hnext]
    simp only [RecoveryWriterShared.request, hopen, false_eq_true, if_false]
    exact ⟨hinv.conserved, hinv.marks, hinv.jobs, hinv.stopped, hinv.quiet,
      hinv.newest, hinv.handed⟩

theorem WriterInvariant.shutdown :
    WriterInvariant { s with shared := s.shared.shutdown } history where
  conserved := hinv.conserved
  marks := hinv.marks
  jobs := hinv.jobs
  stopped := hinv.stopped
  quiet hstop := ⟨(hinv.quiet hstop).1, rfl⟩
  newest := hinv.newest
  handed := hinv.handed

theorem WriterInvariant.factoryFailed (hworker : s.worker = .openFailed error) :
    WriterInvariant
      { s with
        shared := s.shared.factoryFailed error
        worker := .stopped .factoryFailed } history where
  conserved := hinv.conserved.factoryFailed error
  marks := by
    have hmarks := hinv.marks
    rwa [hworker] at hmarks
  jobs := hinv.jobs
  stopped := by simp [RecoveryWriterShared.factoryFailed]
  quiet _ := ⟨rfl, rfl⟩
  newest := nofun
  handed _ hhealthy := absurd rfl hhealthy.1

theorem WriterInvariant.publishInitial (hworker : s.worker = .opened) (scan : RecoveryScan Patch) :
    WriterInvariant
      { s with
        shared := s.shared.publishInitial scan
        worker := .waiting } history := by
  obtain ⟨hmarks, hrun, hhanded⟩ := hinv.of_worker hworker nofun
  refine ⟨hinv.conserved, hmarks, hinv.jobs, ?_, hinv.quiet, hinv.newest,
    fun hpend _ => hhanded hpend⟩
  simp [RecoveryWriterShared.publishInitial, hrun]

theorem WriterInvariant.take {request : RecoveryWriterRequest Patch}
    (hworker : s.worker = .waiting) (hpend : s.shared.pending = some request) :
    WriterInvariant
      { s with
        shared := s.shared.take request
        worker := .calling request }
      (history.next s .take) := by
  obtain ⟨hmarks, hrun, -⟩ := hinv.of_worker hworker nofun
  have hnext : history.next s .take = { history with handed := request.id :: history.handed } := by
    simp only [next, hpend]
  rw [hnext]
  refine ⟨hinv.conserved.take hmarks hpend, rfl, hinv.jobs, ?_, ?_, nofun, ?_⟩
  · simp [RecoveryWriterShared.take, hrun]
  · intro hstop
    exact absurd (hrun.symm.trans hstop) nofun
  · intro _ _
    exact hinv.newest request hpend

theorem WriterInvariant.stop (hworker : s.worker = .waiting) (hpend : s.shared.pending = none) :
    WriterInvariant
      { s with shared := s.shared.stop, worker := .stopped .drained }
      history := by
  obtain ⟨hmarks, -, hhanded⟩ := hinv.of_worker hworker nofun
  refine ⟨hinv.conserved, hmarks, hinv.jobs, ?_, fun _ => ⟨hpend, rfl⟩,
    hinv.newest, fun _ _ => hhanded hpend⟩
  simp [RecoveryWriterShared.stop]

theorem WriterInvariant.publish {request : RecoveryWriterRequest Patch}
    (hworker : s.worker = .succeeded request success) (scan : RecoveryScan Patch) :
    WriterInvariant
      { s with
        shared := s.shared.publish request success scan
        worker := .waiting }
      { history with completed := history.completed + 1 } := by
  obtain ⟨hmarks, hrun, hhanded⟩ := hinv.of_worker hworker nofun
  cases success with
  | checkpoint receipt | discard =>
    refine ⟨hinv.conserved.complete hmarks rfl rfl rfl rfl rfl, rfl,
      hinv.jobs, ?_, hinv.quiet, hinv.newest, fun h _ => hhanded h⟩
    simp [RecoveryWriterShared.publish, hrun]

theorem WriterInvariant.recordFailure {request : RecoveryWriterRequest Patch}
    (hworker : s.worker = .failed request error) :
    WriterInvariant
      { s with
        shared := s.shared.recordFailure request error
        worker := .reopening } history := by
  obtain ⟨hmarks, hrun, hhanded⟩ := hinv.of_worker hworker nofun
  refine ⟨hinv.conserved.recordFailure hmarks error, rfl, hinv.jobs, ?_,
    hinv.quiet, hinv.newest, fun hpend _ => hhanded hpend⟩
  simp [RecoveryWriterShared.recordFailure, hrun]

theorem WriterInvariant.recovered {error : Option RecoveryJournalError}
    (hworker : s.worker = .reopened error) :
    WriterInvariant
      { s with shared := s.shared.recovered error, worker := .waiting }
      history := by
  obtain ⟨hmarks, hrun, hhanded⟩ := hinv.of_worker hworker nofun
  refine ⟨hinv.conserved, hmarks, hinv.jobs, ?_, hinv.quiet, hinv.newest,
    fun hpend _ => hhanded hpend⟩
  simp [RecoveryWriterShared.recovered, hrun]

theorem WriterInvariant.panicPublishing {request : RecoveryWriterRequest Patch}
    (hworker : s.worker = .succeeded request success) :
    WriterInvariant
      { s with
        shared := { s.shared with inFlightRequestId := none }
        worker := .unwinding }
      { history with completed := history.completed + 1 } := by
  obtain ⟨hmarks, hrun, hhanded⟩ := hinv.of_worker hworker nofun
  refine ⟨hinv.conserved.complete hmarks rfl rfl rfl rfl rfl, trivial,
    hinv.jobs, ?_, hinv.quiet, hinv.newest, fun hpend _ => hhanded hpend⟩
  simp [hrun]

theorem WriterInvariant.guard :
    WriterInvariant { s with shared := s.shared.panicked, worker := .stopped .panicked }
      history where
  conserved := hinv.conserved.panicked
  marks := rfl
  jobs := hinv.jobs
  stopped := by simp [panicked]
  quiet _ := ⟨rfl, rfl⟩
  newest := nofun
  handed _ hhealthy := absurd rfl hhealthy.2

theorem WriterInvariant.step {e : WriterLabel Patch}
    (h : writerStep s e = some t) : WriterInvariant t (history.next s e) := by
  cases e with simp only [writerStep] at h
  | allocate operation =>
    split at h
    · cases h
      exact hinv
    · cases h
      exact ⟨hinv.conserved, hinv.marks, hinv.jobs, hinv.stopped, hinv.quiet,
        hinv.newest, hinv.handed⟩
  | request caller =>
    split at h
    · cases h
    · rename_i request hcaller
      cases h
      exact hinv.request hcaller
  | shutdown =>
    cases h
    exact hinv.shutdown
  | factory result =>
    split at h
    · rename_i hworker
      cases result with
      | ok opened | error error =>
        cases h
        exact hinv.move hworker nofun nofun id
    · cases h
  | factoryFailed =>
    split at h
    · rename_i hworker
      cases h
      exact hinv.factoryFailed hworker
    · cases h
  | publishInitial scan =>
    split at h
    · rename_i hworker
      cases h
      exact hinv.publishInitial hworker scan
    · cases h
  | take =>
    split at h
    · rename_i hworker hpend
      cases h
      exact hinv.take hworker hpend
    · cases h
  | stop =>
    split at h
    · rename_i hworker hpend hshutdown
      cases h
      exact hinv.stop hworker hpend
    · cases h
  | backend outcome =>
    split at h
    · rename_i request hworker
      cases outcome with
      | ok receipt | error error =>
        cases h
        exact hinv.move hworker nofun nofun id
    · cases h
  | publish scan =>
    split at h
    · rename_i hworker
      cases h
      exact hinv.publish hworker scan
    · cases h
  | recordFailure =>
    split at h
    · rename_i hworker
      cases h
      exact hinv.recordFailure hworker
    · cases h
  | reopen error =>
    split at h
    · rename_i hworker
      cases h
      exact hinv.move hworker nofun nofun id
    · cases h
  | recovered =>
    split at h
    · rename_i hworker
      cases h
      exact hinv.recovered hworker
    · cases h
  | panic =>
    split at h
    · rename_i hrun
      cases h
      refine hinv.move rfl ?_ nofun fun _ => trivial
      intro cause hcause
      rw [hcause] at hrun
      cases hrun
    · cases h
  | panicPublishingInitial scan =>
    split at h
    · rename_i hworker
      cases h
      have hmoved : WriterInvariant { s with worker := .unwinding } _ :=
        hinv.move hworker nofun nofun fun _ => trivial
      exact ⟨hmoved.conserved, hmoved.marks, hmoved.jobs, hmoved.stopped,
        hmoved.quiet, hmoved.newest, hmoved.handed⟩
    · cases h
  | panicPublishing =>
    split at h
    · rename_i hworker
      cases h
      exact hinv.panicPublishing hworker
    · cases h
  | guard =>
    split at h
    · cases h
      exact hinv.guard
    · cases h

end

variable {e : WriterLabel Patch}

theorem durableScan_step (h : writerStep s e = some t)
    (hne : t.shared.durableScan ≠ s.shared.durableScan) :
    (s.worker = .opened ∧ ∃ scan, e = .publishInitial scan ∨
      e = .panicPublishingInitial (some scan)) ∨
    ∃ request success scan, s.worker = .succeeded request success ∧ e = .publish scan := by
  cases e with simp only [writerStep] at h
  | publishInitial scan =>
    split at h
    · rename_i hworker
      exact .inl ⟨hworker, scan, .inl rfl⟩
    · cases h
  | panicPublishingInitial scan =>
    split at h
    · rename_i hworker
      cases h
      cases scan with
      | none => exact absurd rfl hne
      | some scan => exact .inl ⟨hworker, scan, .inr rfl⟩
    · cases h
  | publish scan =>
    split at h
    · rename_i request success hworker
      exact .inr ⟨request, success, scan, hworker, rfl⟩
    · cases h
  | request caller =>
    split at h
    · cases h
    · cases h
      refine absurd ?_ hne
      unfold request
      split
      · rfl
      · rfl
  | _ =>
    refine absurd ?_ hne
    repeat' split at h
    all_goals
      cases h
      try rfl

theorem WriterInvariant.stopped_step (hinv : WriterInvariant s history)
    (hstop : s.shared.workerStopped = true) (h : writerStep s e = some t) :
    t.shared.workerStopped = true ∧ (history.next s e).accepted = history.accepted := by
  obtain ⟨cause, hworker⟩ := hinv.stopped.mp hstop
  have hclosed := (hinv.quiet hstop).2
  cases e with
  | allocate operation =>
    simp only [writerStep] at h
    split at h
    · cases h
      exact ⟨hstop, rfl⟩
    · cases h
      exact ⟨hstop, rfl⟩
  | request caller =>
    simp only [writerStep] at h
    split at h
    · cases h
    · rename_i request hcaller
      cases h
      simp only [next, hcaller, RecoveryWriterShared.request, hclosed, false_eq_true, if_false]
      exact ⟨hstop, trivial⟩
  | shutdown =>
    cases h
    exact ⟨hstop, rfl⟩
  | _ => simp [writerStep, hworker, WorkerPhase.running] at h

end

section

variable {s : WriterState Patch} {history : WriterHistory}

theorem writerInvariant_of_reachable (h : (writerRuns Patch).Reachable (s, history)) :
    WriterInvariant s history := by
  have hall := h.invariant (P := fun p => WriterInvariant p.1 p.2) ?_ ?_
  · exact hall
  · rintro ⟨s, history⟩ ⟨hstart, hfst⟩
    obtain rfl : history = ⟨0, [], []⟩ := hfst
    exact WriterInvariant.start hstart
  · rintro ⟨s, history⟩ e ⟨t, history'⟩ hinv hstep
    obtain ⟨hworld, hhist⟩ := Machine.observe_step_eq_some.mp hstep
    simp only at hworld hhist hinv
    subst hhist
    exact hinv.step hworld

theorem accepted_of_stopped {p q : WriterState Patch × WriterHistory}
    (h : (writerRuns Patch).Reachable p) (hstopped : p.1.shared.workerStopped = true)
    (hrun : (writerRuns Patch).FreeRun p q) :
    q.1.shared.workerStopped = true ∧ q.2.accepted = p.2.accepted := by
  have hall := hrun.preserves
    (P := fun q => WriterInvariant q.1 q.2 ∧
      q.1.shared.workerStopped = true ∧ q.2.accepted = p.2.accepted) ?_
    ⟨writerInvariant_of_reachable h, hstopped, rfl⟩
  · exact hall.2
  · rintro ⟨s, history⟩ e ⟨t, history'⟩ ⟨hinv, hstop, hsame⟩ - hstep
    obtain ⟨hworld, hhist⟩ := Machine.observe_step_eq_some.mp hstep
    simp only at hworld hhist hinv hstop hsame
    subst hhist
    obtain ⟨hstop', hacc⟩ := hinv.stopped_step hstop hworld
    exact ⟨hinv.step hworld, hstop', hacc.trans hsame⟩

/-- In every reachable state of the recovery writer, no request is lost or
counted twice, the durable scan follows only initialization and successful
outcomes, and a stopped worker leaves nothing pending, accepts nothing more and,
unless its factory failed or it panicked, was handed the last accepted
request. -/
theorem recoveryWriter_conservation (h : (writerRuns Patch).Reachable (s, history)) :
    (s.shared.submittedRequests < u64Max →
      s.shared.submittedRequests =
        history.completed + s.shared.supersededRequests + s.shared.failedRequests +
          (if s.shared.pending.isSome then 1 else 0) +
          (if s.shared.inFlightRequestId.isSome then 1 else 0)) ∧
    (s.worker.Marks s.shared.inFlightRequestId ∧ s.shared.maxObservedJobs ≤ recoveryWriterMaxJobs) ∧
    (∀ e t, writerStep s e = some t →
      t.shared.durableScan ≠ s.shared.durableScan →
        (s.worker = .opened ∧ ∃ scan, e = .publishInitial scan ∨
          e = .panicPublishingInitial (some scan)) ∨
        ∃ request success scan, s.worker = .succeeded request success ∧ e = .publish scan) ∧
    (s.shared.workerStopped = true →
      s.shared.pending = none ∧ s.shared.inFlightRequestId = none ∧
        ∀ t history', (writerRuns Patch).FreeRun (s, history) (t, history') →
          t.shared.workerStopped = true ∧ history'.accepted = history.accepted) ∧
    (s.worker = .stopped .drained → history.accepted.head? = history.handed.head?) := by
  have hinv := writerInvariant_of_reachable h
  refine ⟨?_, ⟨hinv.marks, hinv.jobs⟩, ?_, ?_, ?_⟩
  · intro hlt
    have hsum := hinv.conserved hlt
    simpa only [Bool.toNat, Bool.cond_eq_ite] using hsum
  · intro e t hstep hne
    exact durableScan_step hstep hne
  · intro hstopped
    obtain ⟨cause, hworker⟩ := hinv.stopped.mp hstopped
    have hmarks := hinv.marks
    rw [hworker] at hmarks
    refine ⟨(hinv.quiet hstopped).1, hmarks, ?_⟩
    intro t history' hrun
    exact accepted_of_stopped h hstopped hrun
  · intro hdrained
    have hstopped := hinv.stopped.mpr ⟨_, hdrained⟩
    apply hinv.handed (hinv.quiet hstopped).1
    rw [hdrained]
    exact ⟨nofun, nofun⟩

/-- A run that accepts one discard, commits it and drains. -/
theorem recoveryWriter_conservation_drained :
    ∃ s history, (writerRuns Bytes).Reachable (s, history) ∧
      s.worker = .stopped .drained ∧ history.accepted = [1] ∧
      history.handed.head? = some 1 ∧
      s.shared.submittedRequests = history.completed +
        s.shared.supersededRequests + s.shared.failedRequests := by
  let run : List (WriterLabel Bytes) :=
    [.factory (.ok ()), .publishInitial RecoveryScan.default, .allocate .discard, .request 0, .take,
      .backend (.ok ⟨1, 0, 0, false⟩), .publish RecoveryScan.default, .shutdown, .stop]
  let first : WriterState Bytes × WriterHistory := (⟨default, 1, [], .starting⟩, ⟨0, [], []⟩)
  have hstart : (writerRuns Bytes).start first := ⟨rfl, rfl⟩
  have hexec : ((writerRuns Bytes).exec first run).isSome = true := by rfl
  obtain ⟨⟨s, history⟩, hrun⟩ := isSome_iff_exists.mp hexec
  have hreach : (writerRuns Bytes).Reachable (s, history) := Machine.reachable_of_exec hstart hrun
  obtain ⟨hsum, -, -, -, hdrained⟩ := recoveryWriter_conservation hreach
  cases hrun
  exact ⟨_, _, hreach, rfl, rfl, (hdrained rfl).symm, hsum (by decide)⟩

end

end CollideOScope.Recovery
