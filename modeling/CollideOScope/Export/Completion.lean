import CollideOScope.Export.Termination

/-!
# Every export ends with its outcome published

The machine refines the serialized verdict.  Together with the hand-over of
the encoder this gives what an export promises in every run: the outcome is
published once, no encoder outlives it, an accepted cancellation never ends in
success, and when both threads have ended `done` is set.
-/

namespace CollideOScope.Export

open Worker Function Call ExportState

variable {s t : ExportState}

def ExportState.calls (s : ExportState) : Thread → Option Call
  | .worker => s.worker.call
  | .supervisor => s.supervisor.call

theorem calls_of_worker {worker : Worker} (h : s.worker = worker) :
    s.calls .worker = worker.call := by
  rw [← h]
  rfl

theorem calls_of_supervisor {supervisor : Supervisor} (h : s.supervisor = supervisor) :
    s.calls .supervisor = supervisor.call := by
  rw [← h]
  rfl

theorem calls_worker (p : ExportProgress) (outputs : Outputs) (worker : Worker) :
    ({ s with progress := p, outputs := outputs, worker := worker } : ExportState).calls =
      update s.calls .worker worker.call := by
  funext thread
  cases thread with
  | worker =>
    rw [update_self]
    rfl
  | supervisor =>
    rw [update_of_ne (by simp)]
    rfl

theorem calls_supervisor (p : ExportProgress) (outputs : Outputs) (supervisor : Supervisor) :
    ({ s with
        progress := p
        outputs := outputs
        supervisor := supervisor } : ExportState).calls =
      update s.calls .supervisor supervisor.call := by
  funext thread
  cases thread with
  | worker =>
    rw [update_of_ne (by simp)]
    rfl
  | supervisor =>
    rw [update_self]
    rfl

namespace Call.Effect

variable {thread : Thread} {v v' : Verdict} {c : Call} {rest : Option Call}

variable (h : c.Effect thread v v' rest)
include h

theorem later : v.outcome.Later v'.outcome := by
  cases h with
  | outside _ _ | acquire _ _ _ _ | release _ _ => exact .refl
  | inside _ _ _ _ hout _ _ =>
    rcases hout with hsame | hnext
    · rw [hsame]
    · exact .single hnext

theorem cancel : v'.cancel = v.cancel := by
  cases h with
  | outside _ _ | acquire _ _ _ _ | release _ _ => rfl
  | inside _ hsame _ _ _ _ _ => exact hsame

theorem isPastGate (hopen : v.done = false) (hdone : v'.done) : c.isPastGate := by
  cases h with
  | outside _ _ | acquire _ _ _ _ => simp [hopen] at hdone
  | inside _ _ _ hsame _ _ _ =>
    rw [hsame, hopen] at hdone
    cases hdone
  | release hlocked _ => cases c <;> simp_all [isLocked]

theorem done (hdone : v.done) : v'.done := by
  cases h with
  | outside _ _ | acquire _ _ _ _ => exact hdone
  | inside _ _ _ hsame _ _ _ => rwa [hsame]
  | release _ _ => rfl

end Call.Effect

structure Consistent (s : ExportState) : Prop where
  coordinated : Coordinated s
  serialized : Serialized s.progress.verdict s.calls
  accepted : 0 < s.acceptedCallers → s.progress.outcome.isCancel
  /-- Nothing is published while an encoder runs or may start. -/
  released : s.progress.done → s.supervisor.ownsEncoder = false ∧ ¬s.worker.isPreparing
  /-- The supervisor leaves the outcome open only to a worker that waits for
  its completion. -/
  settled : s.supervisor.hasSettled → s.progress.done ∨ s.progress.encoderFinishRequested
  /-- The worker leaves the outcome open only to the supervisor. -/
  parted : s.worker.hasParted → s.progress.done ∨
    s.supervisor ≠ .absent ∧ s.progress.encoderFinishRequested = false
  requested : ∀ c, s.worker = .cancelling c → s.progress.cancel
  succeeded : s.progress.outcome = .succeeded → s.worker.hasCommitted

theorem consistent_start (outputs : Outputs) : Consistent (.start outputs) := by
  refine ⟨coordinated_start outputs, ?_, ?_, ?_, ?_, ?_, ?_, ?_⟩
  · constructor
    case locked => rintro (_ | _) c ⟨⟩
    case held => rintro thread ⟨⟩
    case settled => intro _; rfl
    case sound => rintro (_ | _) c ⟨⟩
    case cancelled => rintro ⟨⟩
  · rintro ⟨⟩
  · rintro ⟨⟩
  · rintro ⟨⟩
  · rintro ⟨⟩
  · rintro c ⟨⟩
  · rintro ⟨⟩

namespace Consistent

variable {p : ExportProgress} {outputs : Outputs}

theorem effect (h : Consistent s) {thread : Thread} {c : Call}
    {rest : Option Call} (hc : s.calls thread = some c)
    (hcall : c.step thread s.progress s.outputs = some (p, outputs, rest)) :
    c.Effect thread s.progress.verdict p.verdict rest :=
  c.step_effect (h.serialized.sound thread c hc) hcall

variable {action : WorkerAction}

section

variable (h : Consistent s) {c : Call} {rest : Option Call}
include h

theorem worker_flow (hflow : WorkerFlow action s t) : Consistent t := by
  have hverdict := hflow.verdict
  have hdone := hflow.done
  have hout := hflow.outcome
  constructor
  case coordinated => exact h.coordinated.worker_flow hflow
  case serialized =>
    rw [hverdict]
    apply h.serialized.begin
    · rintro (_ | _) c hc
      · rw [calls, hflow.idle] at hc
        cases hc
      · rw [calls, hflow.supervisor]
        exact hc
    · rintro (_ | _) c hc
      · exact .inr (hflow.fresh c hc)
      · rw [calls, hflow.supervisor] at hc
        exact .inl hc
  case accepted =>
    intro hacc
    rw [hflow.acceptedCallers] at hacc
    rw [hout]
    exact h.accepted hacc
  case released =>
    intro hpub
    rw [hdone] at hpub
    rw [hflow.supervisor]
    obtain ⟨howns, hprep⟩ := h.released hpub
    exact ⟨howns, fun hafter => hprep (hflow.preparing hafter)⟩
  case settled =>
    intro hset
    rw [hflow.supervisor] at hset
    rw [hdone]
    rcases h.settled hset with hpub | hfin
    · exact .inl hpub
    · rcases hflow.finishKept hfin with hkept | hspawning
      · exact .inr hkept
      · have hprep := hflow.preparing (by rw [hspawning]; rfl)
        rw [(h.coordinated.preparing hprep).1] at hset
        cases hset
  case parted =>
    intro hparted
    cases hworker : t.worker with
    | finalizing c =>
      obtain ⟨workerError, rfl⟩ := hflow.gate c hworker
      rw [hworker] at hparted
      cases hparted
    | ended => exact absurd hworker hflow.present.2
    | _ =>
      rw [hworker] at hparted
      cases hparted
  case requested =>
    intro c hworker
    rw [hflow.cancel]
    exact (hflow.cancelling c hworker).1
  case succeeded =>
    intro hsucc
    rw [hout] at hsucc
    have hcom := h.succeeded hsucc
    cases hworker : s.worker with
    | finalizing c =>
      have hidle := hflow.idle
      rw [hworker] at hidle
      cases hidle
    | ended => exact absurd hworker hflow.present.1
    | _ =>
      rw [hworker] at hcom
      cases hcom

theorem worker_started (hworker : s.worker = .spawning) :
    Consistent { s with worker := .awaitingReady, supervisor := .starting } := by
  have hprep : s.worker.isPreparing := by rw [hworker]; rfl
  have hsup := (h.coordinated.preparing hprep).1
  refine ⟨h.coordinated.worker_started hworker, ?_, h.accepted, ?_, ?_, ?_, ?_, ?_⟩
  · apply h.serialized.begin
    · rintro (_ | _) c hc
      · rw [calls, hworker] at hc
        cases hc
      · rw [calls, hsup] at hc
        cases hc
    · rintro (_ | _) c ⟨⟩
  · intro hdone
    exact absurd hprep (h.released hdone).2
  · rintro ⟨⟩
  · rintro ⟨⟩
  · rintro c ⟨⟩
  · intro hsucc
    have hcom := h.succeeded hsucc
    rw [hworker] at hcom
    cases hcom

theorem worker_refused (hworker : s.worker = .spawning) (error : String) :
    Consistent
      { s with
        progress := { s.progress with
          encoderActive := false
          encoderCleanupComplete := true }
        worker := .returning (some error) } := by
  have hprep : s.worker.isPreparing := by rw [hworker]; rfl
  refine ⟨h.coordinated.worker_refused hworker error, ?_, h.accepted, ?_, h.settled, ?_, ?_, ?_⟩
  · apply h.serialized.begin
    · rintro (_ | _) c hc
      · rw [calls, hworker] at hc
        cases hc
      · exact hc
    · rintro (_ | _) c hc
      · cases hc
      · exact .inl hc
  · intro hdone
    exact absurd hprep (h.released hdone).2
  · rintro ⟨⟩
  · rintro c ⟨⟩
  · intro hsucc
    have hcom := h.succeeded hsucc
    rw [hworker] at hcom
    cases hcom

theorem accepted_call {thread : Thread} (hc : s.calls thread = some c)
    (hcall : c.step thread s.progress s.outputs = some (p, outputs, rest))
    (hacc : 0 < s.acceptedCallers) : p.outcome.isCancel :=
  (h.effect hc hcall).later.isCancel (h.accepted hacc)

theorem worker_cancelling (hcall : c.step .worker s.progress s.outputs = some (p, outputs, rest))
    (hworker : s.worker = .cancelling c) :
    Consistent
      { s with
        progress := p
        outputs := outputs
        worker := .afterCancelling rest } := by
  have hc := calls_of_worker hworker
  have heff := h.effect hc hcall
  obtain ⟨-, -, -, hfin⟩ := step_frame hcall
  constructor
  case coordinated => exact h.coordinated.worker_cancelling hcall hworker
  case serialized =>
    rw [calls_worker, afterCancelling_call]
    exact h.serialized.call hc heff
  case accepted => exact h.accepted_call hc hcall
  case released =>
    intro _
    refine ⟨?_, ?_⟩
    · rcases h.coordinated.cancelling c hworker with hsup | hsup
      · simp [hsup]
      · simp [hsup]
    · cases rest <;> simp [afterCancelling]
  case settled =>
    intro hset
    rw [hfin]
    exact (h.settled hset).imp_left heff.done
  case parted => cases rest <;> simp [afterCancelling]
  case requested =>
    intro _ _
    rw [show p.cancel = s.progress.cancel from heff.cancel]
    exact h.requested c hworker
  case succeeded =>
    intro hsucc
    have hcancel := heff.later.isCancel (h.serialized.cancelled (h.requested c hworker))
    rw [show p.verdict.outcome = .succeeded from hsucc] at hcancel
    cases hcancel

theorem finish_of_finalizing (hworker : s.worker = .finalizing c)
    (hfin : s.progress.encoderFinishRequested) : s.supervisor = .ended := by
  rcases h.coordinated.finish hfin with ⟨writeError, hwait⟩ | hend
  · rw [hworker] at hwait
    cases hwait
  · exact hend

theorem open_of_finalizing (hworker : s.worker = .finalizing c)
    (hopen : s.progress.encoderCleanupComplete = false) :
    s.supervisor ≠ .absent ∧ s.supervisor ≠ .ended := by
  have hflags := h.coordinated.flags (by simp [hworker])
  rcases hflags.2.mp hopen with howns | ⟨exit, hcompleting⟩
  · constructor
    · intro habs
      rw [habs] at howns
      cases howns
    · intro hend
      rw [hend] at howns
      cases howns
  · simp [hcompleting]

theorem worker_finalizing (hcall : c.step .worker s.progress s.outputs = some (p, outputs, rest))
    (hworker : s.worker = .finalizing c) :
    Consistent
      { s with
        progress := p
        outputs := outputs
        worker := .afterFinalizing rest } := by
  have hc := calls_of_worker hworker
  have hsound := h.serialized.sound .worker c hc
  have heff := h.effect hc hcall
  obtain ⟨-, -, -, hfin⟩ := step_frame hcall
  have hparted : c.handsOver → p.done ∨
      s.supervisor ≠ .absent ∧ p.encoderFinishRequested = false := by
    intro hhands
    rw [hfin]
    exact (h.parted (by rw [hworker]; exact hhands)).imp_left heff.done
  constructor
  case coordinated => exact h.coordinated.worker_finalizing hcall hworker
  case serialized =>
    rw [calls_worker, afterFinalizing_call]
    exact h.serialized.call hc heff
  case accepted => exact h.accepted_call hc hcall
  case released =>
    intro hdone
    refine ⟨?_, ?_⟩
    · by_cases hpre : s.progress.done
      · exact (h.released hpre).1
      · apply h.coordinated.pastGate c hworker
        have hopen : s.progress.done = false := by simpa using hpre
        exact heff.isPastGate hopen hdone
    · cases rest <;> simp [afterFinalizing]
  case settled =>
    intro hset
    rw [hfin]
    exact (h.settled hset).imp_left heff.done
  case parted =>
    intro hafter
    cases rest with
    | none =>
      rcases step_returns hsound hcall with hdone | hhands | ⟨hclean, -, hopen⟩
      · exact .inl hdone
      · exact hparted hhands
      · have hend := h.coordinated.succeeding (by rw [hworker]; exact hclean)
        exact absurd hend (h.open_of_finalizing hworker hopen).2
    | some next =>
      rcases (step_continues hcall).handsOver hafter with hhands | ⟨-, hopen⟩
      · exact hparted hhands
      · obtain ⟨hpres, hend⟩ := h.open_of_finalizing hworker hopen
        refine .inr ⟨hpres, ?_⟩
        rw [hfin, ← Bool.not_eq_true]
        intro hreq
        exact hend (h.finish_of_finalizing hworker hreq)
  case requested => cases rest <;> simp [afterFinalizing]
  case succeeded =>
    intro hsucc
    rcases step_succeeded hcall hsucc with hpre | ⟨rfl, rfl⟩
    · have hcom := h.succeeded hpre
      rw [hworker] at hcom
      cases c with
      | storeDone =>
        cases hcall
        rfl
      | _ => cases hcom
    · rfl

theorem workerStep (hstep : s.workerStep action = some t) : Consistent t := by
  cases workerMove hstep with
  | flow hflow => exact h.worker_flow hflow
  | started hworker => exact h.worker_started hworker
  | refused hworker error => exact h.worker_refused hworker error
  | cancelling hworker _ hcall => exact h.worker_cancelling hcall hworker
  | finalizing hworker hcall => exact h.worker_finalizing hcall hworker

end

theorem supervisor_flow (h : Consistent s) (hflow : SupervisorFlow s t) : Consistent t := by
  have hverdict := hflow.verdict
  have hdone := hflow.done
  have hout := hflow.outcome
  constructor
  case coordinated => exact h.coordinated.supervisor_flow hflow
  case serialized =>
    rw [hverdict]
    apply h.serialized.begin
    · rintro (_ | _) c hc
      · rw [calls, hflow.worker]
        exact hc
      · rw [calls, hflow.idle] at hc
        cases hc
    · rintro (_ | _) c hc
      · rw [calls, hflow.worker] at hc
        exact .inl hc
      · exact .inr (hflow.fresh c hc)
  case accepted =>
    intro hacc
    rw [hflow.acceptedCallers] at hacc
    rw [hout]
    exact h.accepted hacc
  case released =>
    intro hpub
    rw [hdone] at hpub
    rw [hflow.worker]
    obtain ⟨howns, hprep⟩ := h.released hpub
    refine ⟨?_, hprep⟩
    rw [← Bool.not_eq_true] at howns ⊢
    exact fun hafter => howns (hflow.owns hafter)
  case settled =>
    intro hset
    rw [hdone, hflow.finish]
    rcases hflow.settled hset with hpre | hfin
    · exact h.settled hpre
    · exact .inr hfin
  case parted =>
    intro hparted
    rw [hflow.worker] at hparted
    rw [hdone, hflow.finish]
    rcases h.parted hparted with hpub | ⟨-, hfin⟩
    · exact .inl hpub
    · exact .inr ⟨hflow.remains, hfin⟩
  case requested =>
    intro c hworker
    rw [hflow.worker] at hworker
    rw [hflow.cancel]
    exact h.requested c hworker
  case succeeded =>
    rw [hout, hflow.worker]
    exact h.succeeded

theorem supervisor_publishing {c : Call} {exit : SupervisorExit} {rest : Option Call}
    (h : Consistent s) (hcall : c.step .supervisor s.progress s.outputs = some (p, outputs, rest))
    (hsup : s.supervisor = .publishing c exit) :
    Consistent
      { s with
        progress := p
        outputs := outputs
        supervisor := .afterPublishing exit rest } := by
  have hc := calls_of_supervisor hsup
  have hsound := h.serialized.sound .supervisor c hc
  have heff := h.effect hc hcall
  have hpres : s.supervisor ≠ .absent ∧ s.supervisor ≠ .ended := by simp [hsup]
  obtain ⟨-, -, -, hfin⟩ := step_frame hcall
  constructor
  case coordinated => exact h.coordinated.supervisor_publishing hcall hsup
  case serialized =>
    rw [calls_supervisor, Supervisor.afterPublishing_call]
    exact h.serialized.call hc heff
  case accepted => exact h.accepted_call hc hcall
  case released =>
    intro _
    refine ⟨?_, (h.coordinated.worker_of_present hpres).1⟩
    cases rest <;> rfl
  case settled =>
    intro hset
    cases rest with
    | none =>
      obtain ⟨hsaw, -, -⟩ := h.coordinated.publishing c exit hsup
      rcases step_returns hsound hcall with hdone | hhands | ⟨-, hact, -⟩
      · exact .inl hdone
      · cases c <;> simp_all
      · rw [hsaw] at hact
        cases hact
    | some next => cases hset
  case parted =>
    intro hparted
    rw [hfin]
    rcases h.parted hparted with hpub | ⟨-, hreq⟩
    · exact .inl (heff.done hpub)
    · refine .inr ⟨?_, hreq⟩
      cases rest <;> simp [Supervisor.afterPublishing]
  case requested =>
    intro d hworker
    exact absurd hworker ((h.coordinated.worker_of_present hpres).2.2.2 d)
  case succeeded =>
    intro hsucc
    rcases step_succeeded hcall hsucc with hpre | ⟨rfl, -⟩
    · exact h.succeeded hpre
    · have hclean := (h.coordinated.publishing _ exit hsup).2.1
      cases hclean

theorem supervisorStep {action : SupervisorAction} (h : Consistent s)
    (hstep : s.supervisorStep action = some t) : Consistent t := by
  cases h.coordinated.supervisorMove hstep with
  | flow hflow => exact h.supervisor_flow hflow
  | publishing hsup hcall => exact h.supervisor_publishing hcall hsup

theorem step (h : Consistent s) {label : ExportLabel}
    (hstep : exportStep s label = some t) : Consistent t := by
  have hcoordinated := h.coordinated.step hstep
  cases exportMove hstep with
  | accept hrun =>
    exact ⟨hcoordinated, h.serialized.accept hrun, fun _ => rfl,
      h.released, h.settled, h.parted, h.requested, fun hother => by
        cases hother⟩
  | refuse | leave | write _ | exit _ _ =>
    exact ⟨hcoordinated, h.serialized, h.accepted, h.released, h.settled,
      h.parted, h.requested, h.succeeded⟩
  | join hreq =>
    refine ⟨hcoordinated, h.serialized, ?_, h.released, h.settled, h.parted,
      h.requested, h.succeeded⟩
    intro _
    simp [hreq, Outcome.isCancel]
  | raise hacc =>
    have hcancel := h.accepted hacc
    exact ⟨hcoordinated, h.serialized.raise hcancel, fun _ => hcancel,
      h.released, h.settled, h.parted, fun _ _ => rfl, h.succeeded⟩
  | worker hstep => exact h.workerStep hstep
  | supervisor hstep => exact h.supervisorStep hstep

end Consistent

theorem consistent_of_reachable (h : exportMachine.Reachable s) : Consistent s := by
  apply h.invariant
  · rintro _ ⟨outputs, rfl⟩
    exact consistent_start outputs
  · intro s label t hs hstep
    exact hs.step hstep

/-- A step changes the outcome along its order and clears no `done`. -/
theorem later_of_step (h : Consistent s) {label : ExportLabel}
    (hstep : exportStep s label = some t) :
    s.progress.outcome.Later t.progress.outcome ∧ (s.progress.done → t.progress.done) := by
  cases exportMove hstep with
  | accept hrun =>
    rw [hrun]
    exact ⟨.single .accept, id⟩
  | refuse | join _ | leave | raise _ | write _ | exit _ _ => exact ⟨.refl, id⟩
  | worker hstep =>
    cases workerMove hstep with
    | flow hflow =>
      rw [hflow.done, hflow.outcome]
      exact ⟨.refl, id⟩
    | started _ | refused _ _ => exact ⟨.refl, id⟩
    | @cancelling c p _ _ hworker _ hcall
    | @finalizing c p _ _ hworker hcall =>
      have hc := calls_of_worker hworker
      exact ⟨(h.effect hc hcall).later, (h.effect hc hcall).done⟩
  | supervisor hstep =>
    cases h.coordinated.supervisorMove hstep with
    | flow hflow =>
      rw [hflow.done, hflow.outcome]
      exact ⟨.refl, id⟩
    | @publishing c _ p _ _ hsup hcall =>
      have hc := calls_of_supervisor hsup
      exact ⟨(h.effect hc hcall).later, (h.effect hc hcall).done⟩

theorem later_of_run (h : exportMachine.Reachable s) (hrun : exportMachine.FreeRun s t) :
    s.progress.outcome.Later t.progress.outcome ∧ (s.progress.done → t.progress.done) := by
  induction hrun with
  | refl => exact ⟨.refl, id⟩
  | tail hrun _ hstep ih =>
    obtain ⟨hlater, hdone⟩ := later_of_step (consistent_of_reachable (h.run hrun)) hstep
    exact ⟨ih.1.trans hlater, hdone ∘ ih.2⟩

theorem Consistent.child_of_released (h : Consistent s) (hrel : s.supervisor.ownsEncoder = false) :
    s.child = .absent ∨ s.child = .reaped := by
  have hholds := h.coordinated.child
  cases hsup : s.supervisor with rw [hsup] at hholds
  | completing exit | settling exit | publishing _ exit | sending exit =>
    cases exit with
    | withoutChild error => exact .inl hholds
    | broken error | reaped completion => exact .inr hholds
  | absent => exact .inl hholds
  | loadingAbort completion | takingPending completion
  | loadingFinish completion => exact .inr hholds
  | ended => exact hholds
  | _ =>
    rw [hsup] at hrel
    cases hrel

def ExportState.hasEnded (s : ExportState) : Prop :=
  s.worker = .ended ∧ (s.supervisor = .absent ∨ s.supervisor = .ended)

theorem Consistent.done_of_hasEnded (h : Consistent s) (hend : s.hasEnded) : s.progress.done := by
  obtain ⟨hworker, hsup⟩ := hend
  rcases h.parted (by rw [hworker]; rfl) with hdone | ⟨hpres, hfin⟩
  · exact hdone
  · rcases hsup with habs | hend
    · exact absurd habs hpres
    · rcases h.settled (by rw [hend]; rfl) with hdone | hreq
      · exact hdone
      · rw [hfin] at hreq
        cases hreq

end CollideOScope.Export
