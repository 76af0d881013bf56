import CollideOScope.Export.Completion

/-!
# What an export leaves on disk

A cancelled or failed export removes its outputs before it sets `done`, unless
one of two things happens.  `check_cancelled` publishes a cancellation without
the output path, which is right before the encoder starts and wrong in its two
calls after the encoder.  And the worker writes the sidecars without looking
whether the supervisor has published a failure in the meantime.
-/

namespace CollideOScope.Export

open List ExportProgress

variable {s t : ExportState}

/-- The worker publishes a cancellation over outputs that it does not remove,
or writes a sidecar after the outcome was published. -/
def leavesOutputs (s : ExportState) : ExportLabel → Bool
  | .worker action =>
    s.progress.outputStarted &&
      match s.worker, action with
      | .cancelling (.remove false _), .proceed => s.outputs ≠ .none
      | .writing _, action => action.writes && s.progress.done
      | _, _ => false
  | _ => false

def ExportState.Clean (s : ExportState) : Prop :=
  s.progress.outcome = .succeeded ∨ s.child = .absent ∨ s.outputs = .none

@[simp]
def Call.hasCleared : Call → Bool
  | .storeCancelled | .storeOutcome | .storeError _ | .storeDone => true
  | _ => false

structure Cleared (s : ExportState) : Prop where
  published : s.progress.done → s.Clean
  publishing : ∀ thread c, s.calls thread = some c → c.hasCleared → s.Clean

theorem removeStartedOutput_none (p : ExportProgress) (outputPath : Bool) :
    removeStartedOutput p outputPath .none = .none := by
  simp [removeStartedOutput]

namespace Call

variable {thread : Thread} {p p' : ExportProgress} {o o' : Outputs}
  {c next : Call} {rest : Option Call}

theorem step_remove {outputPath : Bool} {failure : Option String}
    (h : (remove outputPath failure).step thread p o = some (p', o', rest)) :
    o' = removeStartedOutput p outputPath o := by
  cases failure with
  | none | some error =>
    simp only [step] at h
    grind

theorem step_outputs (h : c.step thread p o = some (p', o', rest)) :
    o' = o ∨ ∃ outputPath failure, c = .remove outputPath failure ∧
      o' = removeStartedOutput p outputPath o := by
  cases c with
  | remove outputPath failure => exact .inr ⟨outputPath, failure, rfl, step_remove h⟩
  | _ =>
    simp only [step, proceedWith, compareExchange] at h
    grind

theorem step_hasCleared (h : c.step thread p o = some (p', o', some next))
    (hnext : next.hasCleared) :
    c.hasCleared ∨ c = .commitSucceeded ∧ p'.outcome = .succeeded ∨
      ∃ outputPath failure, c = .remove outputPath failure := by
  cases c <;>
    simp only [step, proceedWith, compareExchange] at h <;>
    grind [hasCleared, decide, cases Outcome]

/-- Only a call that has cleared sets `done`. -/
theorem step_done (h : c.step thread p o = some (p', o', rest))
    (hdone : p'.done) : p.done ∨ c.hasCleared := by
  cases c <;>
    simp only [step, proceedWith, compareExchange] at h <;>
    grind [hasCleared, unlock]

end Call

open ExportState (calls Clean)

theorem Consistent.released_of_cleared (h : Consistent s)
    (hclr : s.progress.done ∨ ∃ thread c, s.calls thread = some c ∧ c.hasCleared) :
    s.supervisor.ownsEncoder = false := by
  rcases hclr with hdone | ⟨thread, c, hc, hclr⟩
  · exact (h.released hdone).1
  · have hgate : c.isPastGate := by cases c <;> simp_all
    cases thread with
    | worker =>
      cases hworker : s.worker with
      | cancelling d =>
        rcases h.coordinated.cancelling d hworker with hsup | hsup
        · simp [hsup]
        · simp [hsup]
      | finalizing d =>
        rw [calls, hworker] at hc
        cases hc
        exact h.coordinated.pastGate c hworker hgate
      | _ =>
        rw [calls, hworker] at hc
        cases hc
    | supervisor =>
      cases hsup : s.supervisor with
      | publishing d exit => rfl
      | _ =>
        rw [calls, hsup] at hc
        cases hc

namespace Cleared

theorem start (outputs : Outputs) : Cleared (.start outputs) := by
  constructor
  · rintro ⟨⟩
  · rintro (_ | _) c ⟨⟩

theorem of_clean (h : Cleared s) (hclean : s.Clean → t.Clean)
    (hdone : t.progress.done → s.progress.done)
    (hcalls : ∀ thread c, t.calls thread = some c → c.hasCleared →
      s.calls thread = some c) : Cleared t := by
  constructor
  case published => exact fun hpub => hclean (h.published (hdone hpub))
  case publishing =>
    intro thread c hc hclr
    exact hclean (h.publishing thread c (hcalls thread c hc hclr) hclr)

theorem call (h : Cleared s) (hs : Consistent s) {thread : Thread} {c : Call}
    {rest : Option Call} (hc : s.calls thread = some c)
    (hcall : c.step thread s.progress s.outputs = some (t.progress, t.outputs, rest))
    (hchild : t.child = s.child)
    (hcalls : t.calls = Function.update s.calls thread rest)
    (hremove : ∀ outputPath failure, c = .remove outputPath failure →
      s.child = .absent ∨ removeStartedOutput s.progress outputPath s.outputs = .none) :
    Cleared t := by
  have heff := hs.effect hc hcall
  have hkept : s.outputs = .none → t.outputs = .none := by
    intro hnone
    rcases Call.step_outputs hcall with hsame | ⟨path, failure, -, hrem⟩
    · rw [hsame, hnone]
    · rw [hrem, hnone, removeStartedOutput_none]
  have hterm : s.progress.outcome = .succeeded → t.progress.outcome = .succeeded := by
    intro hsucc
    have hlater : s.progress.outcome.Later t.progress.outcome := heff.later
    rw [hsucc] at hlater
    exact hlater.eq_of_terminal rfl
  have hclean : s.Clean → t.Clean := by
    rintro (hsucc | habs | hnone)
    · exact .inl (hterm hsucc)
    · exact .inr (.inl (hchild.trans habs))
    · exact .inr (.inr (hkept hnone))
  constructor
  case published =>
    intro hdone
    rcases Call.step_done hcall hdone with hpre | hclr
    · exact hclean (h.published hpre)
    · exact hclean (h.publishing thread c hc hclr)
  case publishing =>
    intro other d hd hclr
    rw [hcalls] at hd
    rcases Serialized.update_eq_some hd with ⟨rfl, rfl⟩ | ⟨-, hd⟩
    · rcases Call.step_hasCleared hcall hclr with hpre | ⟨-, hsucc⟩ | ⟨path, failure, rfl⟩
      · exact hclean (h.publishing _ c hc hpre)
      · exact .inl hsucc
      · rcases hremove path failure rfl with habs | hnone
        · exact .inr (.inl (hchild.trans habs))
        · refine .inr (.inr ?_)
          rw [Call.step_remove hcall, hnone]
    · exact hclean (h.publishing other d hd hclr)

theorem removed_of_started (hstart : s.child ≠ .absent →
    s.progress.outputStarted) :
    s.child = .absent ∨ removeStartedOutput s.progress true s.outputs = .none := by
  by_cases habs : s.child = .absent
  · exact .inl habs
  · exact .inr (by simp [removeStartedOutput, hstart habs])

theorem write_ne_none (sidecar : Sidecar) (outputs : Outputs) : sidecar.write outputs ≠ .none := by
  cases sidecar <;> simp [Sidecar.write, Outputs.none]

variable {action : WorkerAction} (h : Cleared s) (hs : Consistent s)
include h hs

theorem worker_flow (hguard : leavesOutputs s (.worker action) = false)
    (hflow : WorkerFlow action s t) : Cleared t := by
  have hdone := hflow.done
  have hout := hflow.outcome
  have hfresh : ∀ c, t.worker.call = some c → c.hasCleared = false := by
    intro c hc
    rcases hflow.fresh c hc with ⟨workerError, rfl⟩ | ⟨-, outputPath, rfl⟩
    · rfl
    · rfl
  have hcalls : ∀ thread c, t.calls thread = some c → c.hasCleared → s.calls thread = some c := by
    rintro (_ | _) c hc hclr
    · rw [hfresh c hc] at hclr
      cases hclr
    · rw [calls, hflow.supervisor] at hc
      exact hc
  rcases hflow.outputs with hsame | ⟨-, hvideo⟩ | ⟨sidecar, hwrite, haction, -⟩
  · apply h.of_clean _ (fun hpub => by rwa [hdone] at hpub) hcalls
    rw [Clean, Clean, hout, hflow.child, hsame]
    exact id
  · apply h.of_clean _ (fun hpub => by rwa [hdone] at hpub) hcalls
    rw [Clean, Clean, hout, hflow.child, hvideo]
    rintro (hsucc | habs | hnone)
    · exact .inl hsucc
    · exact .inr (.inl habs)
    · exact .inr (.inr (by rw [hnone]; rfl))
  · have hend := hs.coordinated.joined (by rw [hwrite]; rfl)
    by_cases habs : s.child = .absent
    · constructor
      · intro _
        exact .inr (.inl (hflow.child.trans habs))
      · intro _ _ _ _
        exact .inr (.inl (hflow.child.trans habs))
    · have hstart : s.progress.outputStarted := hs.coordinated.claims.mpr ⟨habs, by simp [hend]⟩
      have hopen : s.progress.done = false := by
        simp only [leavesOutputs, hwrite] at hguard
        rw [hstart, haction] at hguard
        exact hguard
      constructor
      · intro hpub
        rw [hdone, hopen] at hpub
        cases hpub
      · rintro (_ | _) c hc hclr
        · rw [hfresh c hc] at hclr
          cases hclr
        · rw [calls, hflow.supervisor, hend] at hc
          cases hc

theorem workerStep (hguard : leavesOutputs s (.worker action) = false)
    (hstep : s.workerStep action = some t) : Cleared t := by
  cases workerMove hstep with
  | flow hflow => exact h.worker_flow hs hguard hflow
  | started hworker =>
    refine h.of_clean id id ?_
    rintro (_ | _) c ⟨⟩
  | refused hworker error =>
    refine h.of_clean id id ?_
    rintro (_ | _) c hc _
    · cases hc
    · exact hc
  | @cancelling c p outputs rest hworker hproceed hcall =>
    have hc := calls_of_worker hworker
    refine h.call hs hc hcall rfl ?_ ?_
    · rw [calls_worker, Worker.afterCancelling_call]
    · rintro outputPath failure rfl
      have hstart : s.child ≠ .absent → s.progress.outputStarted := by
        intro habs
        refine hs.coordinated.claims.mpr ⟨habs, ?_⟩
        rcases hs.coordinated.cancelling _ hworker with hsup | hsup
        · simp [hsup]
        · simp [hsup]
      cases outputPath with
      | true => exact removed_of_started hstart
      | false =>
        by_cases habs : s.child = .absent
        · exact .inl habs
        · have hnone : s.outputs = .none := by
            simpa [leavesOutputs, hworker, hproceed, hstart habs] using hguard
          rw [hnone, removeStartedOutput_none]
          exact .inr rfl
  | @finalizing c p outputs rest hworker hcall =>
    have hc := calls_of_worker hworker
    refine h.call hs hc hcall rfl ?_ ?_
    · rw [calls_worker, Worker.afterFinalizing_call]
    · rintro outputPath failure rfl
      have hpath := hs.coordinated.finalizing _ hworker
      have howns := hs.coordinated.pastGate _ hworker rfl
      cases outputPath with
      | false => cases hpath
      | true =>
        apply removed_of_started
        intro habs
        refine hs.coordinated.claims.mpr ⟨habs, ?_⟩
        intro hclaiming
        rw [hclaiming] at howns
        cases howns

theorem supervisorStep {action : SupervisorAction}
    (hstep : s.supervisorStep action = some t) : Cleared t := by
  cases hs.coordinated.supervisorMove hstep with
  | flow hflow =>
    have hdone := hflow.done
    have hout := hflow.outcome
    have hcalls : ∀ thread c, t.calls thread = some c → c.hasCleared → s.calls thread = some c := by
      rintro (_ | _) c hc hclr
      · rw [calls, hflow.worker] at hc
        exact hc
      · rcases hflow.fresh c hc with ⟨workerError, rfl⟩ | ⟨-, path, rfl⟩
        · cases hclr
        · cases hclr
    have hclean : s.supervisor.ownsEncoder = false → s.Clean → t.Clean := by
      intro hrel
      rw [Clean, Clean, hout, hflow.childKept hrel]
      rintro (hsucc | habs | hnone)
      · exact .inl hsucc
      · exact .inr (.inl habs)
      · refine .inr (.inr ?_)
        rcases hflow.outputs with hsame | hclr
        · rw [hsame, hnone]
        · rw [hclr, hnone]
          rfl
    constructor
    case published =>
      intro hpub
      rw [hdone] at hpub
      exact hclean (hs.released_of_cleared (.inl hpub)) (h.published hpub)
    case publishing =>
      intro thread c hc hclr
      have hpre := hcalls thread c hc hclr
      exact hclean (hs.released_of_cleared (.inr ⟨thread, c, hpre, hclr⟩))
        (h.publishing thread c hpre hclr)
  | @publishing c exit p outputs rest hsup hcall =>
    have hc := calls_of_supervisor hsup
    refine h.call hs hc hcall rfl ?_ ?_
    · rw [calls_supervisor, Supervisor.afterPublishing_call]
    · rintro outputPath failure rfl
      cases outputPath with
      | true =>
        apply removed_of_started
        intro habs
        exact hs.coordinated.claims.mpr ⟨habs, by simp [hsup]⟩
      | false =>
        obtain ⟨error, rfl⟩ := (hs.coordinated.publishing _ exit hsup).2.2 rfl
        have hchild := hs.coordinated.child
        rw [hsup] at hchild
        exact .inl hchild

theorem step {label : ExportLabel} (hguard : leavesOutputs s label = false)
    (hstep : exportStep s label = some t) : Cleared t := by
  cases exportMove hstep with
  | accept hrun =>
    refine h.of_clean ?_ id fun _ _ hc _ => hc
    rintro (hsucc | hclean)
    · rw [hrun] at hsucc
      cases hsucc
    · exact .inr hclean
  | refuse | join _ | leave | raise _ => exact h.of_clean id id fun _ _ hc _ => hc
  | worker hstep => exact h.workerStep hs hguard hstep
  | supervisor hstep => exact h.supervisorStep hs hstep
  | write hrun =>
    have howned : ¬(s.progress.done ∨ ∃ thread c, s.calls thread = some c ∧ c.hasCleared) := by
      intro hclr
      rcases hs.child_of_released (hs.released_of_cleared hclr) with habs | hreaped
      · rw [hrun] at habs
        cases habs
      · rw [hrun] at hreaped
        cases hreaped
    constructor
    · intro hdone
      exact absurd (.inl hdone) howned
    · intro thread c hc hclr
      exact absurd (.inr ⟨thread, c, hc, hclr⟩) howned
  | exit hrun success =>
    refine h.of_clean ?_ id fun _ _ hc _ => hc
    rintro (hsucc | habs | hnone)
    · exact .inl hsucc
    · rw [hrun] at habs
      cases habs
    · exact .inr (.inr hnone)

end Cleared

theorem cleared_of_reachableBy
    (h : exportMachine.ReachableBy
      (fun s label => leavesOutputs s label = false) s) : Cleared s := by
  have hboth : Consistent s ∧ Cleared s := by
    apply h.invariant
    · rintro _ ⟨outputs, rfl⟩
      exact ⟨consistent_start outputs, .start outputs⟩
    · rintro s label t ⟨hs, hclr⟩ hguard hstep
      exact ⟨hs.step hstep, hclr.step hs hguard hstep⟩
  exact hboth.2

/-!
## The termination protocol

An output that is left behind stays: after the step that leaves it nobody
removes anything.
-/

def Outcome.isFailing : Outcome → Bool
  | .cancelRequested | .failed | .cancelled => true
  | .running | .succeeded => false

theorem Outcome.Later.isFailing {o o' : Outcome} (h : o.Later o')
    (hfailing : o.isFailing) : o'.isFailing := by
  induction h with
  | refl => exact hfailing
  | tail _ hnext ih => cases hnext <;> first | rfl | cases ih

/-- An output is left, and nobody will remove it. -/
structure Left (s : ExportState) : Prop where
  started : s.progress.outputStarted
  outputs : s.outputs ≠ .none
  supervisor : s.supervisor = .ended
  late : s.worker.isLate
  failing : s.progress.outcome.isFailing
  closed : s.progress.done ∨ ∃ c, s.worker = .cancelling c ∧ c.hasCleared

namespace Left

theorem supervisor_ended (hs : Consistent s) (hstart : s.progress.outputStarted)
    (hsup : s.supervisor = .absent ∨ s.supervisor = .ended) :
    s.supervisor = .ended := by
  rcases hsup with habs | hend
  · have hchild := hs.coordinated.child
    rw [habs] at hchild
    exact absurd hchild (hs.coordinated.claims.mp hstart).1
  · exact hend

open ExportState

theorem of_cancelling {failure : Option String} (hs : Consistent s)
    (hstart : s.progress.outputStarted) (houts : s.outputs ≠ .none)
    (hworker : s.worker = .cancelling (.remove false failure))
    (hstep : s.workerStep .proceed = some t) : Left t := by
  have hend := supervisor_ended hs hstart (hs.coordinated.cancelling _ hworker)
  have hsound := hs.serialized.sound .worker (.remove false failure) (calls_of_worker hworker)
  have hkept : removeStartedOutput s.progress false s.outputs = s.outputs := by
    simp [removeStartedOutput]
  have hfailing : s.progress.outcome.isFailing := by
    cases failure with
    | none =>
      rw [show s.progress.outcome = .cancelRequested from hsound.2]
      rfl
    | some error =>
      rw [show s.progress.outcome = .failed from hsound.2]
      rfl
  simp only [workerStep, hworker, Call.step, hkept] at hstep
  cases failure with
  | none | some error =>
    cases hstep
    exact ⟨hstart, houts, hend, rfl, hfailing, .inr ⟨_, rfl, rfl⟩⟩

variable {action : WorkerAction}

theorem of_writing {sidecar : Sidecar} (hs : Consistent s) (hstart : s.progress.outputStarted)
    (hdone : s.progress.done) (hworker : s.worker = .writing sidecar) (haction : action.writes)
    (hstep : s.workerStep action = some t) : Left t := by
  have hend := hs.coordinated.joined (by rw [hworker]; rfl)
  have hfailing : s.progress.outcome.isFailing := by
    have hterm := hs.serialized.terminal_of_done hdone
    cases hout : s.progress.outcome with
    | succeeded =>
      have hcom := hs.succeeded hout
      rw [hworker] at hcom
      cases hcom
    | failed | cancelled => rfl
    | running | cancelRequested => simp [ExportProgress.verdict, hout, Outcome.terminal] at hterm
  have hlate : sidecar.next.isLate := by cases sidecar <;> rfl
  cases action with
  | proceed =>
    simp only [workerStep, hworker] at hstep
    split at hstep
    · cases hstep
    · cases hstep
      exact ⟨hstart, Cleared.write_ne_none _ _, hend, hlate, hfailing, .inl hdone⟩
  | failVisible error =>
    simp only [workerStep, hworker] at hstep
    split at hstep
    · cases hstep
    · cases hstep
      exact ⟨hstart, Cleared.write_ne_none _ _, hend, rfl, hfailing, .inl hdone⟩
  | _ => cases haction

variable {label : ExportLabel}

theorem of_step (hs : Consistent s) (hleaves : leavesOutputs s label)
    (hstep : exportStep s label = some t) : Left t := by
  cases label with
  | worker action =>
    simp only [leavesOutputs, Bool.and_eq_true] at hleaves
    obtain ⟨hstart, hleaves⟩ := hleaves
    split at hleaves
    · rename_i failure hworker
      exact of_cancelling hs hstart (by simpa using hleaves) hworker hstep
    · rename_i sidecar hworker
      simp only [Bool.and_eq_true] at hleaves
      exact of_writing hs hstart hleaves.2 hworker hleaves.1 hstep
    · cases hleaves
  | _ => cases hleaves

theorem call (h : Left s) (hs : Consistent s) {c : Call} {p : ExportProgress} {outputs : Outputs}
    {rest : Option Call} {worker : Worker} (hc : s.calls .worker = some c)
    (hcall : c.step .worker s.progress s.outputs = some (p, outputs, rest)) (hlate : worker.isLate)
    (hclosed : p.done ∨ ∃ c, worker = .cancelling c ∧ c.hasCleared)
    (hkeeps : s.progress.done ∨ c.hasCleared) :
    Left { s with progress := p, outputs := outputs, worker := worker } := by
  have heff := hs.effect hc hcall
  have hsound := hs.serialized.sound .worker c hc
  have hsame : outputs = s.outputs := by
    rcases Call.step_outputs hcall with hsame | ⟨path, failure, rfl, -⟩
    · exact hsame
    · rcases hkeeps with hdone | hclr
      · have hopen : s.progress.done = false := by
          cases failure with
          | none | some error => exact hsound.1
        rw [hdone] at hopen
        cases hopen
      · cases hclr
  obtain ⟨hstart, -, -, -⟩ := Call.step_frame hcall
  refine ⟨hstart.trans h.started, ?_, h.supervisor, hlate, ?_, hclosed⟩
  · rw [hsame]
    exact h.outputs
  · exact heff.later.isFailing h.failing

theorem workerStep (h : Left s) (hs : Consistent s)
    (hstep : s.workerStep action = some t) : Left t := by
  cases workerMove hstep with
  | flow hflow =>
    have hdone := hflow.done
    have hout := hflow.outcome
    constructor
    case started => rw [hflow.outputStarted, h.started]
    case outputs =>
      rcases hflow.outputs with hsame | ⟨hearly, -⟩ | ⟨sidecar, -, -, hwrit⟩
      · rw [hsame]
        exact h.outputs
      · rw [h.late] at hearly
        cases hearly
      · rw [hwrit]
        exact Cleared.write_ne_none _ _
    case supervisor => rw [hflow.supervisor, h.supervisor]
    case late => exact hflow.late h.late
    case failing =>
      rw [hout]
      exact h.failing
    case closed =>
      rcases h.closed with hpub | ⟨c, hworker, -⟩
      · exact .inl (hdone.trans hpub)
      · have hidle := hflow.idle
        rw [hworker] at hidle
        cases hidle
  | started hworker | refused hworker error =>
    have hlate := h.late
    rw [hworker] at hlate
    cases hlate
  | @cancelling c p outputs rest hworker _ hcall =>
    have hc := calls_of_worker hworker
    have hkeeps : s.progress.done ∨ c.hasCleared := by
      rcases h.closed with hdone | ⟨d, hd, hclr⟩
      · exact .inl hdone
      · rw [hworker] at hd
        cases hd
        exact .inr hclr
    refine h.call hs hc hcall (by cases rest <;> rfl) ?_ hkeeps
    rcases hkeeps with hdone | hclr
    · exact .inl ((hs.effect hc hcall).done hdone)
    · cases c with
      | storeCancelled | storeOutcome | storeError _ =>
        cases hcall
        exact .inr ⟨_, rfl, rfl⟩
      | storeDone =>
        cases hcall
        exact .inl rfl
      | _ => cases hclr
  | @finalizing c p outputs rest hworker hcall =>
    have hc := calls_of_worker hworker
    have hdone : s.progress.done := by
      rcases h.closed with hdone | ⟨d, hd, -⟩
      · exact hdone
      · rw [hworker] at hd
        cases hd
    exact h.call hs hc hcall (by cases rest <;> rfl)
      (.inl ((hs.effect hc hcall).done hdone)) (.inl hdone)

theorem step (h : Left s) (hs : Consistent s) (hstep : exportStep s label = some t) : Left t := by
  have hchild : s.child ≠ .running := by
    intro hrun
    have hholds := hs.coordinated.child
    rw [h.supervisor, hrun] at hholds
    rcases hholds with hother | hother <;> cases hother
  cases exportMove hstep with
  | accept hrun =>
    have hfailing := h.failing
    rw [hrun] at hfailing
    cases hfailing
  | refuse | join _ | leave | raise _ =>
    exact ⟨h.started, h.outputs, h.supervisor, h.late, h.failing, h.closed⟩
  | worker hstep => exact h.workerStep hs hstep
  | supervisor hstep => simp [supervisorStep, h.supervisor] at hstep
  | write hrun | exit hrun _ => exact absurd hrun hchild

theorem run (h : Left s) (hs : exportMachine.Reachable s)
    (hrun : exportMachine.FreeRun s t) : Left t := by
  induction hrun with
  | refl => exact h
  | tail hrun _ hstep ih => exact ih.step (consistent_of_reachable (hs.run hrun)) hstep

end Left

def ExportState.Abandoned (s : ExportState) : Prop :=
  s.child ≠ .absent ∧ (s.progress.outcome = .cancelled ∨ s.progress.outcome = .failed)

/-- The termination protocol of an export.  In every run the outcome is
published once and together with `done`, no encoder outlives it, an accepted
cancellation does not end in success, and `done` is set when both threads have
ended.  An abandoned export has no output left if no step left one, and has one
left after the first step that does. -/
theorem export_terminates (hreach : exportMachine.Reachable s) :
    (s.progress.done → s.progress.outcome.terminal) ∧
    (s.progress.terminal = none → s.progress.done = s.progress.outcome.terminal) ∧
    (∀ t, exportMachine.FreeRun s t →
      (s.progress.outcome.terminal → t.progress.outcome = s.progress.outcome) ∧
      (s.progress.done → t.progress.done ∧ (t.child = .absent ∨ t.child = .reaped))) ∧
    (∀ t, s.progress.outcome = .running →
      exportStep s .cancelCompareExchange = some t →
      ∀ u, exportMachine.FreeRun t u → u.progress.outcome ≠ .succeeded) ∧
    (s.hasEnded → s.progress.done) ∧
    (exportMachine.ReachableBy (fun s label => leavesOutputs s label = false) s →
      (s.hasEnded → s.Abandoned → s.outputs = .none) ∧
      ∀ label t, leavesOutputs s label → exportStep s label = some t →
        ∀ u, exportMachine.FreeRun t u → u.hasEnded → u.Abandoned ∧ u.outputs ≠ .none) := by
  have hs := consistent_of_reachable hreach
  refine ⟨hs.serialized.terminal_of_done, hs.serialized.settled, ?_, ?_, hs.done_of_hasEnded, ?_⟩
  · intro t hrun
    obtain ⟨hlater, hdone⟩ := later_of_run hreach hrun
    have ht := consistent_of_reachable (hreach.run hrun)
    refine ⟨hlater.eq_of_terminal, fun hpublished => ?_⟩
    exact ⟨hdone hpublished, ht.child_of_released (ht.released (hdone hpublished)).1⟩
  · intro t hrunning hstep u hrun hsucceeded
    have hmove : exportMachine.step s .cancelCompareExchange = some t := hstep
    have ht : exportMachine.Reachable t := hreach.tail trivial hmove
    have hrequested : t.progress.outcome = .cancelRequested := by
      simp only [exportStep, ExportProgress.compareExchange, if_pos hrunning] at hstep
      cases hstep
      rfl
    have hcancel := (later_of_run ht hrun).1.isCancel (by rw [hrequested]; rfl)
    rw [hsucceeded] at hcancel
    cases hcancel
  · intro hguarded
    constructor
    · rintro hended ⟨hspawned, houtcome⟩
      rcases (cleared_of_reachableBy hguarded).published
          (hs.done_of_hasEnded hended) with hsucceeded | habsent | hnone
      · rw [hsucceeded] at houtcome
        rcases houtcome with hother | hother <;> cases hother
      · exact absurd habsent hspawned
      · exact hnone
    · intro label t hleaves hstep u hrun hended
      have hmove : exportMachine.step s label = some t := hstep
      have ht : exportMachine.Reachable t := hreach.tail trivial hmove
      have hleft := (Left.of_step hs hleaves hstep).run ht hrun
      have hu := consistent_of_reachable (ht.run hrun)
      have hterminal := hu.serialized.terminal_of_done (hu.done_of_hasEnded hended)
      have hfailing := hleft.failing
      refine ⟨⟨(hu.coordinated.claims.mp hleft.started).1, ?_⟩, hleft.outputs⟩
      cases houtcome : u.progress.outcome <;>
        simp_all [ExportProgress.verdict, Outcome.terminal, Outcome.isFailing]

def work : ExportLabel := .worker .proceed

def supervise : ExportLabel := .supervisor .proceed

/-- A caller of `cancel`. -/
def cancelRequest : List ExportLabel := [.cancelCompareExchange, .cancelStore]

/-- From the first check to the frame loop, with the encoder running. -/
def startup : List ExportLabel :=
  replicate 5 work ++ replicate 6 supervise ++ [work, .encoderWrites]

def cancelledRun : List ExportLabel :=
  startup ++ cancelRequest ++ [.supervisor .kill, .supervisor (.reap (.ok ""))] ++
    replicate 12 supervise ++ [.worker (.leaveFrames none)] ++
    replicate 10 work

/-- A cancellation between the encoder and the sidecars. -/
def lateCancelRun : List ExportLabel :=
  startup ++ [.worker (.leaveFrames none), work, .encoderExits true,
    .supervisor (.reap (.ok ""))] ++ replicate 6 supervise ++
    replicate 4 work ++ cancelRequest ++ replicate 13 work

/-- An encoder that exits before the worker closes its input. -/
def earlyExitRun : List ExportLabel :=
  startup ++ [.encoderExits true, .supervisor (.reap (.ok ""))] ++
    replicate 14 supervise ++ [.worker (.leaveFrames none)] ++
    replicate 7 work ++
    [.worker .skip, .worker .skip] ++ replicate 6 work

/-- A cancelled export with nothing left. -/
theorem export_terminates_cancelled :
    ∃ s, exportMachine.Reachable s ∧ s.hasEnded ∧ s.Abandoned ∧
      s.progress.done ∧ s.outputs = .none := by
  have hstart : (exportMachine.restrict
      fun s label => leavesOutputs s label = false).start (.start .none) := ⟨.none, rfl⟩
  have hrun : (exportMachine.restrict
      fun s label => leavesOutputs s label = false).exec (.start .none) cancelledRun = some _ := rfl
  have hguarded := Machine.ReachableBy.of_restrict (Machine.reachable_of_exec hstart hrun)
  have hreach := hguarded.reachable
  obtain ⟨-, -, -, -, hdone, hclean⟩ := export_terminates hreach
  exact ⟨_, hreach, ⟨rfl, .inr rfl⟩, ⟨by simp, .inl rfl⟩,
    hdone ⟨rfl, .inr rfl⟩,
    (hclean hguarded).1 ⟨rfl, .inr rfl⟩ ⟨by simp, .inl rfl⟩⟩

/-- A late cancellation leaves the video, and an early exit of the encoder
leaves the motion sidecar. -/
theorem export_leaves_outputs :
    (∃ s, exportMachine.Reachable s ∧ s.hasEnded ∧ s.child ≠ .absent ∧
      s.progress.outcome = .cancelled ∧ s.outputs.video) ∧
    (∃ s, exportMachine.Reachable s ∧ s.hasEnded ∧ s.child ≠ .absent ∧
      s.progress.outcome = .failed ∧ s.outputs.motionSidecar) := by
  have hstart : exportMachine.start (.start .none) := ⟨.none, rfl⟩
  have hlate : exportMachine.exec (.start .none) lateCancelRun = some _ := rfl
  have hearly : exportMachine.exec (.start .none) earlyExitRun = some _ := rfl
  constructor
  · exact ⟨_, Machine.reachable_of_exec hstart hlate, ⟨rfl, .inr rfl⟩, by simp, rfl, rfl⟩
  · exact ⟨_, Machine.reachable_of_exec hstart hearly, ⟨rfl, .inr rfl⟩, by simp, rfl, rfl⟩

end CollideOScope.Export
