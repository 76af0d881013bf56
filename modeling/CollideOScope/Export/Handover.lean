import CollideOScope.Export.Moves

/-!
# Who owns the encoder

The worker and the supervisor hand the encoder over and back through two
channels and the two flags that `finalize_export_worker` reads first.  This
file relates the places of the two threads to those flags, to the encoder
process and to each other.  The relation holds in every run.
-/

namespace CollideOScope.Export

open Supervisor Worker

variable {s t : ExportState}

/-- How the places of the threads, the flags and the child fit together. -/
structure Coordinated (s : ExportState) : Prop where
  preparing : s.worker.isPreparing → s.supervisor = .absent ∧ s.ready = none ∧ s.completion = none
  opening : s.supervisor.isOpening → s.worker = .awaitingReady ∧ s.ready = none
  completion : s.completion ≠ none → s.supervisor = .ended
  joined : s.worker.hasJoined → s.supervisor = .ended
  cancelling : ∀ c, s.worker = .cancelling c → s.supervisor = .absent ∨ s.supervisor = .ended
  succeeding : s.worker.isSucceeding → s.supervisor = .ended
  finish : s.progress.encoderFinishRequested →
    (∃ writeError, s.worker = .awaitingCompletion writeError) ∨ s.supervisor = .ended
  spawning : s.worker = .spawning → s.progress.encoderActive = true ∧
    s.progress.encoderCleanupComplete = false ∧
    s.progress.encoderFinishRequested = false
  flags : s.worker ≠ .spawning → s.supervisor.Flags s.progress
  child : s.supervisor.Holds s.child
  claims : s.supervisor.Claims s.child s.progress
  finalizing : ∀ c, s.worker = .finalizing c → c.withholdsPath = false
  pastGate : ∀ c, s.worker = .finalizing c → c.isPastGate → s.supervisor.ownsEncoder = false
  publishing : ∀ c exit, s.supervisor = .publishing c exit →
    c.sawActive = false ∧ c.isClean = false ∧
      (c.withholdsPath → ∃ error, exit = .withoutChild error)

theorem coordinated_start (outputs : Outputs) : Coordinated (.start outputs) := by
  constructor <;> simp [ExportState.start, ExportProgress.new, Flags, Claims]

namespace Coordinated

theorem worker_flow {action : WorkerAction} (h : Coordinated s)
    (hflow : WorkerFlow action s t) : Coordinated t := by
  have hsup := hflow.supervisor
  constructor
  case preparing =>
    intro hprep
    rw [hsup, hflow.ready, hflow.completion]
    exact h.preparing (hflow.preparing hprep)
  case opening =>
    intro hopening
    rw [hsup] at hopening
    obtain ⟨hworker, hready⟩ := h.opening hopening
    exact absurd hready (hflow.answered hworker)
  case completion =>
    intro hcomp
    rw [hflow.completion] at hcomp
    rw [hsup]
    exact h.completion hcomp
  case joined =>
    intro hjoin
    rw [hsup]
    exact (hflow.joined hjoin).elim h.joined id
  case cancelling =>
    intro c hworker
    rw [hsup]
    rcases (hflow.cancelling c hworker).2 with hprep | hjoin
    · exact .inl (h.preparing hprep).1
    · exact .inr (h.joined hjoin)
  case succeeding =>
    intro hsucc
    rw [hsup]
    exact (hflow.succeeding hsucc).elim h.succeeding h.joined
  case finish =>
    intro hfin
    rw [hsup]
    rcases hflow.finish hfin with hpre | hwait
    · rcases h.finish hpre with ⟨writeError, hworker⟩ | hend
      · exact .inr (h.completion (hflow.completed _ hworker))
      · exact .inr hend
    · exact .inl hwait
  case spawning => exact hflow.staged
  case flags =>
    intro hworker
    obtain ⟨hact, hcleanup⟩ := hflow.flags hworker
    have hflags := h.flags hflow.notSpawning
    rw [Flags, hsup, hact, hcleanup]
    exact hflags
  case child =>
    rw [hsup, hflow.child]
    exact h.child
  case claims =>
    rw [Claims, hsup, hflow.child, hflow.outputStarted]
    exact h.claims
  case finalizing =>
    intro c hworker
    obtain ⟨workerError, rfl⟩ := hflow.gate c hworker
    rfl
  case pastGate =>
    intro c hworker hgate
    obtain ⟨workerError, rfl⟩ := hflow.gate c hworker
    cases hgate
  case publishing =>
    rw [hsup]
    exact h.publishing

theorem of_spawning (h : Coordinated s) (hworker : s.worker = .spawning) :
    s.supervisor = .absent ∧ s.child = .absent ∧ s.progress.outputStarted = false := by
  have hsup := (h.preparing (by rw [hworker]; rfl)).1
  have hchild : s.child = .absent := by
    have hchild := h.child
    rwa [hsup] at hchild
  exact ⟨hsup, hchild, by simpa [Claims, hchild] using h.claims⟩

theorem worker_started (h : Coordinated s) (hworker : s.worker = .spawning) :
    Coordinated { s with worker := .awaitingReady, supervisor := .starting } := by
  obtain ⟨-, hready, hcomp⟩ := h.preparing (by rw [hworker]; rfl)
  obtain ⟨hact, hcleanup, hfin⟩ := h.spawning hworker
  obtain ⟨-, hchild, hstart⟩ := h.of_spawning hworker
  constructor <;>
    simp [hstart, Flags, Claims, hready, hcomp, hact, hcleanup, hfin, hchild]

theorem worker_refused (h : Coordinated s) (hworker : s.worker = .spawning) (error : String) :
    Coordinated
      { s with
        progress := { s.progress with
          encoderActive := false
          encoderCleanupComplete := true }
        worker := .returning (some error) } := by
  have hcomp := (h.preparing (by rw [hworker]; rfl)).2.2
  have hfin := (h.spawning hworker).2.2
  obtain ⟨hsup, hchild, hstart⟩ := h.of_spawning hworker
  constructor <;>
    simp [hstart, Flags, Claims, hsup, hcomp, hfin, hchild]

variable {p : ExportProgress} {outputs : Outputs} {rest : Option Call} {c : Call}

section

variable (h : Coordinated s) (hcall : c.step .worker s.progress s.outputs = some (p, outputs, rest))
include h hcall

theorem worker_call {worker : Worker} (hpre : s.worker.call = some c)
    (hafter : ¬worker.isPreparing ∧ ¬worker.hasJoined)
    (hcanc : ∀ next, worker = .cancelling next → s.worker = .cancelling c)
    (hsucc : worker.isSucceeding → s.worker.isSucceeding)
    (hpath : ∀ next, worker = .finalizing next → next.withholdsPath = false)
    (hgate : ∀ next, worker = .finalizing next → next.isPastGate → s.supervisor.ownsEncoder = false)
    :
    Coordinated { s with progress := p, outputs := outputs, worker := worker } := by
  obtain ⟨hstart, hact, hcleanup, hfin⟩ := Call.step_frame hcall
  have hspawning : s.worker ≠ .spawning := by
    rintro hworker
    rw [hworker] at hpre
    cases hpre
  constructor
  case preparing =>
    intro hprep
    exact absurd hprep hafter.1
  case opening =>
    intro hopening
    obtain ⟨hworker, -⟩ := h.opening hopening
    rw [hworker] at hpre
    cases hpre
  case completion => exact h.completion
  case joined =>
    intro hjoin
    exact absurd hjoin hafter.2
  case cancelling =>
    intro next hnext
    exact h.cancelling c (hcanc next hnext)
  case succeeding =>
    intro hnext
    exact h.succeeding (hsucc hnext)
  case finish =>
    intro hreq
    rw [hfin] at hreq
    rcases h.finish hreq with ⟨writeError, hworker⟩ | hend
    · rw [hworker] at hpre
      cases hpre
    · exact .inr hend
  case spawning =>
    intro hworker
    have hworker : worker = .spawning := hworker
    exact absurd (by rw [hworker]; rfl) hafter.1
  case flags =>
    intro _
    rw [Flags, hact, hcleanup]
    exact h.flags hspawning
  case child => exact h.child
  case claims =>
    rw [Claims, hstart]
    exact h.claims
  case finalizing => exact hpath
  case pastGate => exact hgate
  case publishing => exact h.publishing

theorem worker_cancelling (hworker : s.worker = .cancelling c) :
    Coordinated
      { s with
        progress := p
        outputs := outputs
        worker := .afterCancelling rest } := by
  apply h.worker_call hcall (by rw [hworker]; rfl)
  · cases rest <;> simp [afterCancelling]
  · intro _ _
    exact hworker
  · cases rest <;> simp [afterCancelling]
  · cases rest <;> simp [afterCancelling]
  · cases rest <;> simp [afterCancelling]

theorem worker_finalizing (hworker : s.worker = .finalizing c) :
    Coordinated
      { s with
        progress := p
        outputs := outputs
        worker := .afterFinalizing rest } := by
  have hflags := h.flags (by simp [hworker])
  cases rest with
  | none =>
    apply h.worker_call hcall (by rw [hworker]; rfl) <;>
      simp [afterFinalizing]
  | some next =>
    have hcont := Call.step_continues hcall
    apply h.worker_call hcall (by rw [hworker]; rfl)
    · simp [afterFinalizing]
    · simp [afterFinalizing]
    · intro hnext
      rw [hworker]
      exact hcont.isClean hnext
    · rintro _ ⟨⟩
      rw [← Bool.not_eq_true]
      intro hwithholds
      have hpre := h.finalizing c hworker
      rw [hcont.withholdsPath hwithholds] at hpre
      cases hpre
    · rintro _ ⟨⟩ hgate
      rcases hcont.isPastGate hgate with hpast | hinactive | hcomp
      · exact h.pastGate c hworker hpast
      · rw [← hflags.1, hinactive]
      · rw [← Bool.not_eq_true]
        intro howns
        rw [hflags.2.mpr (.inl howns)] at hcomp
        cases hcomp

end

theorem workerStep {action : WorkerAction} (h : Coordinated s)
    (hstep : s.workerStep action = some t) : Coordinated t := by
  cases workerMove hstep with
  | flow hflow => exact h.worker_flow hflow
  | started hworker => exact h.worker_started hworker
  | refused hworker error => exact h.worker_refused hworker error
  | cancelling hworker _ hcall => exact h.worker_cancelling hcall hworker
  | finalizing hworker hcall => exact h.worker_finalizing hcall hworker

theorem worker_of_present (h : Coordinated s)
    (hpres : s.supervisor ≠ .absent ∧ s.supervisor ≠ .ended) :
    ¬s.worker.isPreparing ∧ ¬s.worker.hasJoined ∧
      ¬s.worker.isSucceeding ∧ ∀ c, s.worker ≠ .cancelling c := by
  refine ⟨?_, ?_, ?_, ?_⟩
  · intro hprep
    exact hpres.1 (h.preparing hprep).1
  · intro hjoin
    exact hpres.2 (h.joined hjoin)
  · intro hsucc
    exact hpres.2 (h.succeeding hsucc)
  · intro c hworker
    rcases h.cancelling c hworker with habs | hend
    · exact hpres.1 habs
    · exact hpres.2 hend

theorem not_spawning_of_present (h : Coordinated s)
    (hpres : s.supervisor ≠ .absent) : s.worker ≠ .spawning := by
  intro hworker
  exact hpres (h.preparing (by rw [hworker]; rfl)).1

theorem supervisor_flow (h : Coordinated s) (hflow : SupervisorFlow s t) : Coordinated t := by
  have hworker := hflow.worker
  obtain ⟨hprep, hjoin, hsucc, hcanc⟩ := h.worker_of_present hflow.present
  have hspawning := h.not_spawning_of_present hflow.present.1
  constructor
  case preparing =>
    intro hafter
    rw [hworker] at hafter
    exact absurd hafter hprep
  case opening =>
    intro hopening
    obtain ⟨hpre, hready⟩ := hflow.opening hopening
    rw [hworker, hready]
    exact h.opening hpre
  case completion =>
    intro hcomp
    rcases hflow.completion with hsame | hend
    · rw [hsame] at hcomp
      exact absurd (h.completion hcomp) hflow.present.2
    · exact hend
  case joined =>
    intro hafter
    rw [hworker] at hafter
    exact absurd hafter hjoin
  case cancelling =>
    intro c hc
    rw [hworker] at hc
    exact absurd hc (hcanc c)
  case succeeding =>
    intro hafter
    rw [hworker] at hafter
    exact absurd hafter hsucc
  case finish =>
    intro hfin
    rw [hflow.finish] at hfin
    rw [hworker]
    rcases h.finish hfin with hwait | hend
    · exact .inl hwait
    · exact absurd hend hflow.present.2
  case spawning =>
    intro hc
    rw [hworker] at hc
    exact absurd hc hspawning
  case flags =>
    intro _
    exact hflow.flags (h.flags hspawning)
  case child => exact hflow.child h.child
  case claims => exact hflow.claims h.child h.claims
  case finalizing =>
    intro c hc
    rw [hworker] at hc
    exact h.finalizing c hc
  case pastGate =>
    intro c hc hgate
    rw [hworker] at hc
    rw [← Bool.not_eq_true]
    intro howns
    have hrel := h.pastGate c hc hgate
    rw [hflow.owns howns] at hrel
    cases hrel
  case publishing =>
    intro c exit hpub
    have hcall : t.supervisor.call = some c := by rw [hpub]; rfl
    refine ⟨?_, hflow.reports c hcall, hflow.withholds c exit hpub⟩
    rcases hflow.fresh c hcall with ⟨workerError, rfl⟩ | ⟨-, outputPath, rfl⟩
    · rfl
    · rfl

theorem supervisor_publishing {exit : SupervisorExit} (h : Coordinated s)
    (hcall : c.step .supervisor s.progress s.outputs = some (p, outputs, rest))
    (hsup : s.supervisor = .publishing c exit) :
    Coordinated
      { s with
        progress := p
        outputs := outputs
        supervisor := .afterPublishing exit rest } := by
  have hpres : s.supervisor ≠ .absent ∧ s.supervisor ≠ .ended := by simp [hsup]
  obtain ⟨hprep, hjoin, hsucc, hcanc⟩ := h.worker_of_present hpres
  have hspawning := h.not_spawning_of_present hpres.1
  obtain ⟨hstart, hact, hcleanup, hfin⟩ := Call.step_frame hcall
  have hflags := h.flags hspawning
  have hchild := h.child
  have hclaims := h.claims
  rw [hsup] at hflags hchild hclaims
  constructor
  case preparing =>
    intro hafter
    exact absurd hafter hprep
  case opening =>
    intro hopening
    apply h.opening
    rw [hsup]
    cases rest with
    | none | some next => exact hopening
  case completion =>
    intro hcomp
    exact absurd (h.completion hcomp) hpres.2
  case joined =>
    intro hafter
    exact absurd hafter hjoin
  case cancelling =>
    intro c hc
    exact absurd hc (hcanc c)
  case succeeding =>
    intro hafter
    exact absurd hafter hsucc
  case finish =>
    intro hreq
    rw [hfin] at hreq
    rcases h.finish hreq with hwait | hend
    · exact .inl hwait
    · exact absurd hend hpres.2
  case spawning =>
    intro hc
    exact absurd hc hspawning
  case flags =>
    intro _
    simp only [Flags, hact, hcleanup] at hflags ⊢
    cases rest with
    | none | some next => simpa [afterPublishing] using hflags
  case child =>
    cases rest with
    | none | some next => exact hchild
  case claims =>
    rw [Claims, hstart]
    cases rest with
    | none | some next => simpa [Claims, afterPublishing] using hclaims
  case finalizing => exact h.finalizing
  case pastGate =>
    intro _ _ _
    cases rest with
    | none | some next => rfl
  case publishing =>
    intro next exit' hnext
    cases rest with
    | none => cases hnext
    | some next' =>
      cases hnext
      obtain ⟨hsaw, hclean, hwithholds⟩ := h.publishing c exit hsup
      have hcont := Call.step_continues hcall
      refine ⟨?_, ?_, fun hw => hwithholds (hcont.withholdsPath hw)⟩
      · rw [← Bool.not_eq_true]
        intro hnext
        rcases hcont.sawActive hnext with hpre | howned
        · rw [hsaw] at hpre
          cases hpre
        · rw [hflags.1] at howned
          cases howned
      · rw [← Bool.not_eq_true] at hclean ⊢
        exact fun hnext => hclean (hcont.isClean hnext)

variable {action : SupervisorAction}

theorem supervisorMove (h : Coordinated s)
    (hstep : s.supervisorStep action = some t) : SupervisorMove s t := by
  apply Export.supervisorMove _ hstep
  intro hreadying
  exact (h.opening (by rw [hreadying]; rfl)).1

theorem supervisorStep (h : Coordinated s)
    (hstep : s.supervisorStep action = some t) : Coordinated t := by
  cases h.supervisorMove hstep with
  | flow hflow => exact h.supervisor_flow hflow
  | publishing hsup hcall => exact h.supervisor_publishing hcall hsup

/-- A change of the verdict, of the outputs and of the callers of `cancel`
leaves the relation. -/
theorem frame (h : Coordinated s) {refused accepted : ℕ}
    (hframe : p.outputStarted = s.progress.outputStarted ∧
      p.encoderActive = s.progress.encoderActive ∧
      p.encoderCleanupComplete = s.progress.encoderCleanupComplete ∧
      p.encoderFinishRequested = s.progress.encoderFinishRequested) :
    Coordinated { s with
      progress := p
      outputs := outputs
      refusedCallers := refused
      acceptedCallers := accepted } := by
  obtain ⟨hstart, hact, hcleanup, hfin⟩ := hframe
  have hflags := h.flags
  have hclaims := h.claims
  have hreq := h.finish
  have hspawning := h.spawning
  rw [Flags, ← hact, ← hcleanup] at hflags
  rw [Claims, ← hstart] at hclaims
  rw [← hfin] at hreq
  rw [← hact, ← hcleanup, ← hfin] at hspawning
  exact ⟨h.preparing, h.opening, h.completion, h.joined, h.cancelling, h.succeeding, hreq,
    hspawning, hflags, h.child, hclaims, h.finalizing, h.pastGate, h.publishing⟩

theorem encoderExits (h : Coordinated s) (hrun : s.child = .running)
    (success : Bool) : Coordinated { s with child := .exited success } := by
  have hchild : s.supervisor.Holds (.exited success) := by
    have hpre := h.child
    rw [hrun] at hpre
    generalize s.supervisor = supervisor at hpre
    cases supervisor with
    | deactivating exit | completing exit | settling exit
    | publishing _ exit | sending exit => cases exit <;> cases hpre
    | _ => simp_all
  have hclaims : s.supervisor.Claims (.exited success) s.progress := by
    simpa [Claims, hrun] using h.claims
  exact ⟨h.preparing, h.opening, h.completion, h.joined, h.cancelling, h.succeeding, h.finish,
    h.spawning, h.flags, hchild, hclaims, h.finalizing, h.pastGate, h.publishing⟩

theorem step (h : Coordinated s) {label : ExportLabel}
    (hstep : exportStep s label = some t) : Coordinated t := by
  cases exportMove hstep with
  | accept _ | refuse | join _ | leave | raise _ | write _ => exact h.frame ⟨rfl, rfl, rfl, rfl⟩
  | worker hstep => exact h.workerStep hstep
  | supervisor hstep => exact h.supervisorStep hstep
  | exit hrun success => exact h.encoderExits hrun success

end Coordinated

end CollideOScope.Export
