import CollideOScope.Preparation.Runtime
import Mathlib.Tactic.FinCases

/-!
# Publication of the current preparation

A completion of the pending generation that a worker has published must be the
answer of the next poll.  The check of a worker that its generation is current
and its write of the completion slot are two actions, so a worker of an older
generation can overwrite the completion of the newer one after it was written
and before it was polled.  This is the only way in which it is lost.
-/

namespace CollideOScope.Preparation

open Option
open CollideOScope.Autopilot (SceneId)
open PerformancePreparationRuntime

structure PublicationView (W : Type) where
  nextGeneration : ℕ
  pendingGeneration : Option PreparationGeneration
  completion : Option WorkerCompletion
  queued : Option PreparationJob
  host : HostStage
  worker : W → WorkerStage

namespace PerformancePreparationRuntime

variable {W : Type}

def view (s : PerformancePreparationRuntime W) : PublicationView W where
  nextGeneration := s.nextGeneration
  pendingGeneration := s.pendingGeneration
  completion := s.completion
  queued := s.mailbox.pending
  host := s.host
  worker := s.worker

variable (s : PerformancePreparationRuntime W)

@[simp] theorem view_drop (replacements : List PreparedReplacement) :
    (s.drop replacements).view = s.view :=
  rfl

@[simp] theorem view_dropResult (result : Option PreparationResult) :
    (s.dropResult result).view = s.view := by
  unfold dropResult
  split <;> rfl

@[simp] theorem view_removeReady (key : PreparedTransactionKey) :
    (s.removeReady key).view = s.view := by
  unfold removeReady
  split <;> rfl

end PerformancePreparationRuntime

/-- The stages in which no job or clearing is under way. -/
def HostStage.neutral : HostStage → Bool
  | .enqueueing _ => false
  | .cancelling => false
  | .clearing => false
  | _ => true

/-- The generation of a stage is one issued so far, and its result is of that
generation. -/
def WorkerStage.Within (limit : ℕ) : WorkerStage → Prop
  | .waiting => True
  | .preparing job _ => job.generation ≤ limit
  | .opened job _ _ => job.generation ≤ limit
  | .admitting job _ _ => job.generation ≤ limit
  | .finished job result => job.generation ≤ limit ∧
      ∀ done, result = some done → PreparationResult.generation done = job.generation
  | .publishing generation result => generation ≤ limit ∧
      PreparationResult.generation result = generation
  | .exited => True

theorem WorkerStage.Within.mono {stage : WorkerStage} {m n : ℕ}
    (h : stage.Within m) (hle : m ≤ n) : stage.Within n := by
  cases stage with
  | waiting | exited => trivial
  | preparing job done | opened job done source | admitting job done source =>
    exact Nat.le_trans h hle
  | finished job result | publishing generation result => exact ⟨Nat.le_trans h.1 hle, h.2⟩

/-- What an action can do to the view, with the generation it publishes. -/
inductive ViewStep {W : Type} [DecidableEq W] (v : PublicationView W) :
    Option PreparationGeneration → PublicationView W → Prop
  | same : ViewStep v none v
  | host {host : HostStage} (neutral : host.neutral = true) :
      ViewStep v none { v with host := host }
  | issue (request : PreparationRequest) :
      ViewStep v none { v with
        nextGeneration := v.nextGeneration + 1
        pendingGeneration := some (v.nextGeneration + 1)
        host := .enqueueing ⟨v.nextGeneration + 1, request⟩ }
  | enqueue {job : PreparationJob} (stage : v.host = .enqueueing job) :
      ViewStep v none { v with queued := some job, host := .idle }
  | cancel :
      ViewStep v none { v with
        nextGeneration := v.nextGeneration + 1
        pendingGeneration := none
        host := .cancelling }
  | cancelJob (stage : v.host = .cancelling) :
      ViewStep v none { v with queued := none, host := .clearing }
  | clear (stage : v.host = .clearing) :
      ViewStep v none { v with completion := none, host := .idle }
  | stop : ViewStep v none { v with queued := none, host := .dropped }
  | poll :
      ViewStep v none { v with
        completion := none
        pendingGeneration :=
          if v.pendingGeneration = v.completion.map (·.generation) then none
          else v.pendingGeneration }
  | take {w : W} {job : PreparationJob} (queued : v.queued = some job) :
      ViewStep v none { v with
        queued := none
        worker := Function.update v.worker w (.preparing job []) }
  | work {w : W} {stage : WorkerStage}
      (within : ∀ limit, (v.worker w).Within limit → stage.Within limit) :
      ViewStep v none { v with worker := Function.update v.worker w stage }
  | publish {w : W} {generation : PreparationGeneration}
      {result : PreparationResult}
      (stage : v.worker w = .publishing generation result) :
      ViewStep v (some generation) { v with
        completion := some ⟨generation, result⟩
        worker := Function.update v.worker w .waiting }

def publishes {W : Type} (s : PerformancePreparationRuntime W) :
    PreparationLabel W → Option PreparationGeneration
  | .worker w =>
    match s.worker w with
    | .publishing generation _ => some generation
    | _ => none
  | _ => none

section

variable {W : Type} {s t : PerformancePreparationRuntime W}

theorem poll_view (s : PerformancePreparationRuntime W) :
    s.poll.2.view = { s.view with
      completion := none
      pendingGeneration :=
        if s.pendingGeneration = s.completion.map (·.generation) then none
        else s.pendingGeneration } := by
  unfold poll
  cases hslot : s.completion with
  | none =>
    by_cases hnone : s.pendingGeneration = none
    · simp [view, hslot, hnone]
    · simp [view, hslot, hnone]
  | some completion =>
    dsimp only
    by_cases hcur : s.pendingGeneration = some completion.generation
    · rw [if_neg (not_not_intro hcur), map_some, if_pos hcur]
      cases completion.result with
      | ok transaction =>
        exact view_removeReady { s with completion := none, pendingGeneration := none }
          transaction.key
      | error failure => rfl
    · rw [if_pos hcur, map_some, if_neg hcur, view_dropResult]
      rfl

variable [DecidableEq W]

theorem hostStep_view {action : HostAction}
    (h : hostStep s action = some t) : ViewStep s.view none t.view := by
  have hcall (hstep : hostCall s action = some t) : ViewStep s.view none t.view := by
    cases action with
    | submit request =>
      simp only [hostCall, submit] at hstep
      split at hstep
      · rename_i u hsubmit
        cases hstep
        split at hsubmit
        · cases hsubmit
        · cases hsubmit
          have hview := view_removeReady s request.key
          rw [← hview]
          exact .host rfl
      · cases hstep
        exact .same
    | cancelPending =>
      simp only [hostCall, cancelPending] at hstep
      split at hstep
      · rename_i u hcancel
        cases hstep
        split at hcancel
        · cases hcancel
        · cases hcancel
          exact .cancel
      · cases hstep
        exact .same
    | poll =>
      cases hstep
      rw [poll_view]
      exact .poll
    | takeReady key | clearReady =>
      cases hstep
      exact .same
    | drop =>
      cases hstep
      exact .host rfl
    | proceed => cases hstep
  have hproceed (hstep : hostProceed s = some t) : ViewStep s.view none t.view := by
    unfold hostProceed at hstep
    cases hhost : s.host with simp only [hhost, some.injEq] at hstep
    | idle | dropped => cases hstep
    | evicting request =>
      subst hstep
      unfold evict
      split
      · split
        · exact .host rfl
        · exact .same
      · exact .host rfl
    | issuing request =>
      unfold issue at hstep
      split at hstep
      · rename_i u hissue
        cases hstep
        split at hissue
        · cases hissue
        · cases hissue
          exact .issue request
      · cases hstep
        exact .host rfl
    | enqueueing job =>
      subst hstep
      exact .enqueue hhost
    | cancelling =>
      subst hstep
      exact .cancelJob hhost
    | clearing =>
      subst hstep
      rw [clearCompletion, view_dropResult]
      exact .clear hhost
    | stopping =>
      subst hstep
      exact .stop
  unfold hostStep at h
  split at h
  · exact hproceed h
  · exact hcall h
  · cases h

variable {w : W}

theorem work_view {stage : WorkerStage} {u : PerformancePreparationRuntime W}
    (hview : u.view = s.view) (hwith : ∀ limit, (s.worker w).Within limit → stage.Within limit) :
    ViewStep s.view none (u.move w stage).view := by
  have hmove : (u.move w stage).view =
      { u.view with worker := Function.update u.view.worker w stage } := rfl
  rw [hmove, hview]
  exact .work hwith

variable {done : List PreparedReplacement} {job : PreparationJob}

theorem fail_view (hwith : ∀ limit, (s.worker w).Within limit → job.generation ≤ limit)
    (kind : PreparationFailureKind) (message : String) :
    ViewStep s.view none (s.fail w job done kind message).view := by
  refine work_view (view_drop s done) ?_
  intro limit hlim
  refine ⟨hwith limit hlim, ?_⟩
  intro result hres
  cases hres
  rfl

theorem supersede_view (hwith : ∀ limit, (s.worker w).Within limit → job.generation ≤ limit) :
    ViewStep s.view none (s.supersede w job done).view :=
  work_view (view_drop s done) fun limit hlim => ⟨hwith limit hlim, nofun⟩

theorem sourceStep_view {outcome : SourceOutcome}
    (h : sourceStep s w outcome = some t) : ViewStep s.view none t.view := by
  unfold sourceStep at h
  split at h
  · rename_i job done hstage
    split at h
    · cases h
      have hwith : ∀ limit, (s.worker w).Within limit → job.generation ≤ limit := by
        intro limit hlim
        rwa [hstage] at hlim
      cases outcome with
      | prepared source => exact work_view rfl hwith
      | superseded => exact supersede_view hwith
      | failed kind message => exact fail_view hwith kind message
      | panicked => exact fail_view hwith .sourceOpen _
    · cases h
  · cases h

theorem admit_view {source : CpuPreparedSource} {request : SourcePreparationRequest}
    (hwith : ∀ limit, (s.worker w).Within limit → job.generation ≤ limit) :
    ViewStep s.view none (s.admitReplacement w job done source request).view := by
  unfold admitReplacement
  split
  · exact fail_view hwith .sourceOpen _
  · split
    · exact fail_view hwith .resourceBudget _
    · exact work_view rfl hwith

theorem workerStep_view (h : workerStep s w = some t) :
    ViewStep s.view (publishes s (.worker w)) t.view := by
  unfold workerStep at h
  cases hstage : s.worker w with
  | waiting =>
    simp only [publishes, hstage] at h ⊢
    unfold take at h
    split at h
    · cases h
      exact work_view rfl fun _ _ => trivial
    · obtain ⟨job, hjob, rfl⟩ := map_eq_some_iff.mp h
      exact .take hjob
  | preparing job done =>
    simp only [publishes, hstage] at h ⊢
    have hwith : ∀ limit, (s.worker w).Within limit → job.generation ≤ limit := by
      intro limit hlim
      rwa [hstage] at hlim
    split at h
    · cases h
    · cases h
      unfold complete
      split
      · refine work_view rfl fun limit hlim => ⟨hwith limit hlim, ?_⟩
        intro result hres
        cases hres
        rfl
      · exact supersede_view hwith
  | opened job done source =>
    simp only [publishes, hstage, some.injEq] at h ⊢
    subst h
    have hwith : ∀ limit, (s.worker w).Within limit → job.generation ≤ limit := by
      intro limit hlim
      rwa [hstage] at hlim
    unfold recheck
    split
    · exact work_view rfl hwith
    · exact supersede_view hwith
  | admitting job done source =>
    simp only [publishes, hstage] at h ⊢
    obtain ⟨request, -, rfl⟩ := map_eq_some_iff.mp h
    refine admit_view ?_
    intro limit hlim
    rwa [hstage] at hlim
  | finished job result =>
    simp only [publishes, hstage, some.injEq] at h ⊢
    subst h
    unfold checkCurrent
    split
    · split
      · exact work_view rfl fun _ _ => trivial
      · rename_i done
        refine work_view rfl ?_
        intro limit hlim
        rw [hstage] at hlim
        exact ⟨hlim.1, hlim.2 done rfl⟩
    · exact work_view (view_dropResult s result) fun _ _ => trivial
  | publishing generation result =>
    simp only [publishes, hstage, some.injEq] at h ⊢
    subst h
    have hview : (s.publish w generation result).view = { s.view with
        completion := some ⟨generation, result⟩
        worker := Function.update s.worker w .waiting } := by
      have hdrop := view_dropResult { s with completion := some ⟨generation, result⟩ }
        (s.completion.map (·.result))
      have hworker := congrArg PublicationView.worker hdrop
      unfold publish move
      unfold view at hdrop hworker ⊢
      simp only [PublicationView.mk.injEq] at hdrop ⊢
      obtain ⟨h₁, h₂, h₃, h₄, h₅, h₆⟩ := hdrop
      exact ⟨h₁, h₂, h₃, h₄, h₅, by rw [h₆]⟩
    rw [hview]
    exact .publish hstage
  | exited => simp only [hstage, reduceCtorEq] at h

theorem preparationStep_view {label : PreparationLabel W} (h : preparationStep s label = some t) :
    ViewStep s.view (publishes s label) t.view := by
  cases label with
  | host action => exact hostStep_view h
  | worker w => exact workerStep_view h
  | source w outcome => exact sourceStep_view h
  | ledger state =>
    cases h
    exact .same

end

structure Coherent {W : Type} (v : PublicationView W)
    (published : List PreparationGeneration) : Prop where
  pending_eq : ∀ generation, v.pendingGeneration = some generation → generation = v.nextGeneration
  published_le : ∀ generation ∈ published, generation ≤ v.nextGeneration
  worker : ∀ w, (v.worker w).Within v.nextGeneration
  queued : ∀ job, v.queued = some job → job.generation ≤ v.nextGeneration
  enqueueing : ∀ job, v.host = .enqueueing job → job.generation ≤ v.nextGeneration
  cancelling : v.host = .cancelling ∨ v.host = .clearing → v.pendingGeneration = none
  slot : ∀ completion, v.completion = some completion →
    PreparationResult.generation completion.result = completion.generation ∧
      completion.generation ∈ published

def Kept {W : Type} (v : PublicationView W) (published : List PreparationGeneration) : Prop :=
  ∀ generation, v.pendingGeneration = some generation →
    generation ∈ published →
      ∃ completion, v.completion = some completion ∧ completion.generation = generation

section

variable {W : Type} {v v' : PublicationView W} {published : List PreparationGeneration}
  {event : Option PreparationGeneration}

variable {host : HostStage}

theorem not_neutral_of_cancelling (hneutral : host.neutral = true) :
    ¬(host = .cancelling ∨ host = .clearing) := by
  rintro (rfl | rfl)
  · cases hneutral
  · cases hneutral

theorem Coherent.next (h : Coherent v published) {pending : Option PreparationGeneration}
    (hpend : ∀ generation, pending = some generation → generation = v.nextGeneration + 1)
    (henqueueing : ∀ job, host = .enqueueing job → job.generation ≤ v.nextGeneration + 1)
    (hcanc : host = .cancelling ∨ host = .clearing → pending = none) :
    Coherent { v with
      nextGeneration := v.nextGeneration + 1
      pendingGeneration := pending
      host := host } published where
  pending_eq := hpend
  published_le := fun generation hmem => Nat.le_succ_of_le (h.published_le generation hmem)
  worker := fun w => (h.worker w).mono (Nat.le_succ _)
  queued := fun job hjob => Nat.le_succ_of_le (h.queued job hjob)
  enqueueing := henqueueing
  cancelling := hcanc
  slot := h.slot

variable [DecidableEq W]

theorem within_update {worker : W → WorkerStage} {limit : ℕ} {w : W} {stage : WorkerStage}
    (h : ∀ w, (worker w).Within limit) (hstage : stage.Within limit) (w' : W) :
    (Function.update worker w stage w').Within limit := by
  by_cases hsame : w' = w
  · rw [hsame, Function.update_self]
    exact hstage
  · rw [Function.update_of_ne hsame]
    exact h w'

theorem Coherent.step (h : Coherent v published) (hstep : ViewStep v event v') :
    Coherent v' (published ++ event.toList) := by
  cases hstep with try rw [toList_none, List.append_nil]
  | same => exact h
  | host neutral =>
    refine ⟨h.pending_eq, h.published_le, h.worker, h.queued, ?_, ?_, h.slot⟩
    · intro job hjob
      dsimp only at hjob
      rw [hjob] at neutral
      cases neutral
    · intro hcanc
      exact absurd hcanc (not_neutral_of_cancelling neutral)
  | issue request =>
    refine h.next ?_ ?_ ?_
    · intro generation hgen
      exact (some.inj hgen).symm
    · intro job hjob
      rw [← HostStage.enqueueing.inj hjob]
    · rintro (hstage | hstage)
      · cases hstage
      · cases hstage
  | enqueue stage =>
    refine ⟨h.pending_eq, h.published_le, h.worker, ?_, nofun, ?_, h.slot⟩
    · intro job hjob
      rw [← some.inj hjob]
      exact h.enqueueing _ stage
    · intro hcanc
      exact absurd hcanc (not_neutral_of_cancelling rfl)
  | cancel => exact h.next nofun nofun fun _ => rfl
  | cancelJob stage =>
    exact ⟨h.pending_eq, h.published_le, h.worker, nofun, nofun,
      fun _ => h.cancelling (.inl stage), h.slot⟩
  | clear stage =>
    exact ⟨h.pending_eq, h.published_le, h.worker, h.queued, nofun,
      fun _ => h.cancelling (.inr stage), nofun⟩
  | stop =>
    refine ⟨h.pending_eq, h.published_le, h.worker, nofun, nofun, ?_, h.slot⟩
    intro hcanc
    exact absurd hcanc (not_neutral_of_cancelling rfl)
  | poll =>
    refine ⟨?_, h.published_le, h.worker, h.queued, h.enqueueing, ?_, nofun⟩
    · intro generation hgen
      split at hgen
      · cases hgen
      · exact h.pending_eq generation hgen
    · intro hcanc
      rw [h.cancelling hcanc, ite_self]
  | take queued =>
    exact ⟨h.pending_eq, h.published_le, within_update h.worker (h.queued _ queued), nofun,
      h.enqueueing, h.cancelling, h.slot⟩
  | work within =>
    exact ⟨h.pending_eq, h.published_le, within_update h.worker (within _ (h.worker _)), h.queued,
      h.enqueueing, h.cancelling, h.slot⟩
  | @publish w generation result stage =>
    have hwith := h.worker w
    rw [stage] at hwith
    refine ⟨h.pending_eq, ?_, within_update h.worker trivial, h.queued,
      h.enqueueing, h.cancelling, ?_⟩
    · intro other hother
      rcases List.mem_append.mp hother with hold | hnew
      · exact h.published_le other hold
      · rw [List.mem_singleton.mp hnew]
        exact hwith.1
    · intro completion hcomp
      cases hcomp
      exact ⟨hwith.2, List.mem_append_right _ (List.mem_singleton_self _)⟩

theorem Kept.step (h : Kept v published) (hcoh : Coherent v published)
    (hstep : ViewStep v event v')
    (hguard : ∀ generation completion, event = some generation →
      v.completion = some completion →
      v.pendingGeneration = some completion.generation →
      generation = completion.generation) :
    Kept v' (published ++ event.toList) := by
  have hfresh : v.nextGeneration + 1 ∉ published := by
    intro hmem
    exact Nat.lt_irrefl _ (hcoh.published_le _ hmem)
  cases hstep with
  | issue request =>
    intro generation hgen hmem
    rw [toList_none, List.append_nil, ← some.inj hgen] at hmem
    exact absurd hmem hfresh
  | cancel => nofun
  | clear stage =>
    intro generation hgen
    exact absurd (hgen.symm.trans (hcoh.cancelling (.inr stage))) nofun
  | poll =>
    intro generation hgen hmem
    rw [toList_none, List.append_nil] at hmem
    split at hgen
    · cases hgen
    · rename_i hother
      obtain ⟨completion, hslot, hsame⟩ := h generation hgen hmem
      rw [hgen, hslot, map_some, hsame] at hother
      exact absurd rfl hother
  | @publish w published' result stage =>
    intro generation hgen hmem
    refine ⟨_, rfl, ?_⟩
    rcases List.mem_append.mp hmem with hold | hnew
    · obtain ⟨completion, hslot, hsame⟩ := h generation hgen hold
      rw [← hsame] at hgen ⊢
      exact hguard published' completion rfl hslot hgen
    · exact (List.mem_singleton.mp hnew).symm
  | same | host neutral | enqueue stage | cancelJob stage | stop
  | take queued | work within => rwa [toList_none, List.append_nil]

end

/-- The next poll reports the published completion of the pending
generation. -/
def AnswersCurrent {W : Type} (s : PerformancePreparationRuntime W)
    (published : List PreparationGeneration) : Prop :=
  s.host = .idle → ∀ generation, s.pendingGeneration = some generation →
    generation ∈ published →
      (∃ key, s.poll.1 = .ready generation key) ∨
        ∃ failure, s.poll.1 = .failed failure ∧ failure.generation = generation

/-- The action publishes another generation over the unread completion of the
pending generation. -/
def OverwritesCurrent {W : Type} (s : PerformancePreparationRuntime W)
    (label : PreparationLabel W) : Prop :=
  ∃ generation ∈ publishes s label, ∃ completion ∈ s.completion,
    s.pendingGeneration = some completion.generation ∧ generation ≠ completion.generation

instance {W : Type} (s : PerformancePreparationRuntime W)
    (label : PreparationLabel W) : Decidable (OverwritesCurrent s label) :=
  inferInstanceAs (Decidable (∃ generation ∈ publishes s label,
    ∃ completion ∈ s.completion,
      s.pendingGeneration = some completion.generation ∧ generation ≠ completion.generation))

def preparationRuns (W : Type) [DecidableEq W] (budget : PerformanceResourceBudget) :
    Machine (PerformancePreparationRuntime W × List PreparationGeneration) (PreparationLabel W) :=
  (preparationMachine W budget).observe []
    fun published s label _ => published ++ (publishes s label).toList

section

variable {W : Type} {s t : PerformancePreparationRuntime W} {published : List PreparationGeneration}

variable {completion : WorkerCompletion}

theorem poll_of_fits (hslot : s.completion = some completion)
    (hpend : s.pendingGeneration = some completion.generation)
    (hres : PreparationResult.generation completion.result = completion.generation) :
    (∃ key, s.poll.1 = .ready completion.generation key) ∨
      ∃ failure, s.poll.1 = .failed failure ∧ failure.generation = completion.generation := by
  unfold poll
  rw [hslot]
  dsimp only
  rw [if_neg (not_not_intro hpend), ← hres]
  cases completion.result with
  | ok transaction => exact .inl ⟨transaction.key, rfl⟩
  | error failure => exact .inr ⟨failure, rfl, rfl⟩

theorem poll_of_misfit {generation : PreparationGeneration} (hslot : s.completion = some completion)
    (hpend : s.pendingGeneration = some generation) (hother : completion.generation ≠ generation) :
    s.poll.1 = .pending generation := by
  have hmisfit : s.pendingGeneration ≠ some completion.generation := by
    rw [hpend]
    intro hsame
    exact hother (some.inj hsame).symm
  unfold poll
  rw [hslot]
  dsimp only
  rw [if_pos hmisfit]
  simp only [pendingPoll, hpend]

theorem Kept.answersCurrent (h : Kept s.view published)
    (hcoh : Coherent s.view published) : AnswersCurrent s published := by
  intro _ generation hpend hmem
  obtain ⟨completion, hslot, rfl⟩ := h generation hpend hmem
  exact poll_of_fits hslot hpend (hcoh.slot completion hslot).1

theorem coherent_new (budget : PerformanceResourceBudget) :
    Coherent (new budget : PerformancePreparationRuntime W).view [] :=
  ⟨nofun, nofun, fun _ => trivial, nofun, nofun, fun _ => rfl, nofun⟩

variable [DecidableEq W] {budget : PerformanceResourceBudget}

theorem kept_of_reachableBy
    (hreach : (preparationRuns W budget).ReachableBy
      (fun p label => ¬OverwritesCurrent p.1 label) (s, published)) :
    Coherent s.view published ∧ Kept s.view published := by
  refine Machine.ReachableBy.invariant
    (P := fun p => Coherent p.1.view p.2 ∧ Kept p.1.view p.2) ?_ ?_ hreach
  · rintro ⟨s, published⟩ ⟨hs, hpub⟩
    rw [hs, hpub]
    exact ⟨coherent_new budget, nofun⟩
  · rintro ⟨s, published⟩ label ⟨t, published'⟩ ⟨hcoh, hkept⟩ hguard hstep
    obtain ⟨hstep, hpub⟩ := Machine.observe_step_eq_some.mp hstep
    rw [hpub]
    have hview := preparationStep_view hstep
    refine ⟨hcoh.step hview, hkept.step hcoh hview ?_⟩
    intro generation completion hev hslot hpend
    by_contra hother
    exact hguard ⟨generation, hev, completion, hslot, hpend, hother⟩

/-- The current preparation is answered in every run in which no worker
publishes over its unread completion, and lost by the first one that does. -/
theorem current_preparation_kept
    (hreach : (preparationRuns W budget).ReachableBy
      (fun p label => ¬OverwritesCurrent p.1 label) (s, published)) :
    AnswersCurrent s published ∧
      ∀ label t, s.host = .idle → OverwritesCurrent s label →
        preparationStep s label = some t →
        ¬AnswersCurrent t (published ++ (publishes s label).toList) := by
  obtain ⟨hcoherent, hkept⟩ := kept_of_reachableBy hreach
  refine ⟨hkept.answersCurrent hcoherent, ?_⟩
  rintro label t hidle ⟨generation, hevent, completion, hslot, hpending, hother⟩ hstep hanswers
  have hview := preparationStep_view hstep
  rw [hevent] at hview
  generalize hv : t.view = v' at hview
  cases hview with
  | @publish w _ result stage =>
    have hhost : t.host = .idle := by
      rw [← hidle]
      exact congrArg PublicationView.host hv
    have hpending' : t.pendingGeneration = some completion.generation := by
      rw [← hpending]
      exact congrArg PublicationView.pendingGeneration hv
    have hslot' : t.completion = some ⟨generation, result⟩ := congrArg PublicationView.completion hv
    have hmem := List.mem_append_left (publishes s label).toList (hcoherent.slot completion hslot).2
    have hpoll := poll_of_misfit hslot' hpending' hother
    rcases hanswers hhost completion.generation hpending' hmem with
      ⟨key, hready⟩ | ⟨failure, hfailed, -⟩
    · exact absurd (hpoll.symm.trans hready) nofun
    · exact absurd (hpoll.symm.trans hfailed) nofun

end

theorem firstLayer_ne_zero : (1 : UInt64) ≠ 0 := by
  decide

theorem firstSlot_ne_zero : (1 : UInt16) ≠ 0 := by
  decide

def sceneRequest (scene : SceneId) : PreparationRequest :=
  ⟨.scene scene, [⟨⟨1, firstLayer_ne_zero⟩, ⟨1, firstSlot_ne_zero⟩⟩]⟩

def pixelSource : CpuPreparedSource := ⟨1, 1, [34, 2, 3, 255], 4⟩

def submission (scene : SceneId) : List (PreparationLabel (Fin 2)) :=
  [.host (.submit (sceneRequest scene)), .host .proceed, .host .proceed, .host .proceed]

/-- The actions of a worker from its take to its last `is_current`. -/
def preparation (w : Fin 2) : List (PreparationLabel (Fin 2)) :=
  [.worker w, .source w (.prepared pixelSource), .worker w, .worker w, .worker w, .worker w]

/-- A prepared scene is published and answered. -/
theorem current_preparation_kept_scene :
    ∃ s published, (preparationRuns (Fin 2) .default).ReachableBy
        (fun p label => ¬OverwritesCurrent p.1 label) (s, published) ∧
      s.pendingGeneration = some 1 ∧
      ((∃ key, s.poll.1 = .ready 1 key) ∨
        ∃ failure, s.poll.1 = .failed failure ∧ failure.generation = 1) := by
  have hstart : ((preparationRuns (Fin 2) .default).restrict
      fun p label => ¬OverwritesCurrent p.1 label).start (new .default, []) := ⟨rfl, rfl⟩
  have hrun : ((preparationRuns (Fin 2) .default).restrict
      fun p label => ¬OverwritesCurrent p.1 label).exec (new .default, [])
        (submission ⟨4, by decide⟩ ++ preparation 0 ++ [.worker 0]) =
      some (_, _) := rfl
  have hreach := Machine.ReachableBy.of_restrict (Machine.reachable_of_exec hstart hrun)
  exact ⟨_, _, hreach, rfl, (current_preparation_kept hreach).1 rfl 1 rfl (by decide)⟩

theorem poll_iterate {W : Type} {s : PerformancePreparationRuntime W}
    {generation : PreparationGeneration} (hslot : s.completion = none)
    (hpend : s.pendingGeneration = some generation) (n : ℕ) :
    ((fun t => t.poll.2)^[n] s).poll.1 = .pending generation := by
  have hpoll : s.poll = (.pending generation, s) := by simp only [poll, hslot, pendingPoll, hpend]
  induction n with
  | zero => rw [Function.iterate_zero, id_eq, hpoll]
  | succ n ih => rwa [Function.iterate_succ_apply, hpoll]

/-- The first worker passes its check, the second one prepares and publishes
the newer generation, and the first one then publishes over it.  Every later
poll reports the newer generation as pending, with no job left. -/
theorem current_preparation_lost :
    ∃ s published,
      (preparationRuns (Fin 2) .default).Reachable (s, published) ∧
      s.host = .idle ∧ s.pendingGeneration = some 2 ∧ 2 ∈ published ∧
      s.mailbox.pending = none ∧ (∀ w, s.worker w = .waiting) ∧
      ∀ n, ((fun t => t.poll.2)^[n] s).poll.1 = .pending 2 := by
  have hstart : (preparationRuns (Fin 2) .default).start (new .default, []) := ⟨rfl, rfl⟩
  have hrun : (preparationRuns (Fin 2) .default).exec (new .default, [])
      (submission ⟨4, by decide⟩ ++ preparation 0 ++ submission ⟨5, by decide⟩ ++ preparation 1 ++
        [.worker 1, .worker 0, .host .poll]) = some (_, _) := rfl
  have hreach := Machine.reachable_of_exec hstart hrun
  refine ⟨_, _, hreach, rfl, rfl, by decide, rfl, ?_, poll_iterate rfl rfl⟩
  intro w
  fin_cases w
  · rfl
  · rfl

/-- The generation that a poll answers. -/
def PreparationPoll.answered : PreparationPoll → Option PreparationGeneration
  | .ready generation _ => some generation
  | .failed failure => some failure.generation
  | .idle | .pending _ => none

/-- The runs with the generations that were answered so far. -/
def answeredRuns (W : Type) [DecidableEq W] (budget : PerformanceResourceBudget) :=
  (preparationRuns W budget).observe [] fun answered p label _ =>
    answered ++ match label with
      | .host .poll => p.1.poll.1.answered.toList
      | _ => []

/-- An answer was published, and it is behind every later one and behind the
generation that is pending. -/
structure Answered {W : Type} (v : PublicationView W)
    (published answered : List PreparationGeneration) : Prop where
  published : answered ⊆ published
  increasing : answered.Pairwise (· < ·)
  behind : ∀ pending, v.pendingGeneration = some pending → ∀ generation ∈ answered,
    generation < pending

section

variable {W : Type} {s t : PerformancePreparationRuntime W} {generation : PreparationGeneration}

theorem pendingPoll_answered (s : PerformancePreparationRuntime W) :
    s.pendingPoll.answered = none := by
  unfold pendingPoll
  split <;> rfl

theorem poll_answered (h : s.poll.1.answered = some generation) :
    ∃ completion, s.completion = some completion ∧
      s.pendingGeneration = some completion.generation ∧
      PreparationResult.generation completion.result = generation := by
  unfold poll at h
  cases hslot : s.completion with
  | none =>
    rw [hslot] at h
    exact absurd ((pendingPoll_answered s).symm.trans h) nofun
  | some completion =>
    rw [hslot] at h
    dsimp only at h
    split_ifs at h with hcurrent
    · exact absurd ((pendingPoll_answered s).symm.trans h) nofun
    · refine ⟨completion, rfl, not_not.mp hcurrent, ?_⟩
      cases hresult : completion.result with
      | ok transaction | error failure =>
        rw [hresult] at h
        exact some.inj h

variable [DecidableEq W] {v v' : PublicationView W} {event : Option PreparationGeneration}
  {published answered : List PreparationGeneration} {budget : PerformanceResourceBudget}

theorem eq_poll (h : preparationStep s (.host .poll) = some t) : t = s.poll.2 := by
  simp only [preparationStep, hostStep] at h
  split at h
  · rename_i heq
    cases heq
  · exact (some.inj h).symm
  · cases h

theorem Answered.step (h : Answered v published answered) (hcoherent : Coherent v published)
    (hstep : ViewStep v event v') : Answered v' (published ++ event.toList) answered := by
  refine ⟨fun _ hmem => List.mem_append_left _ (h.published hmem), h.increasing, ?_⟩
  intro pending hpending generation hmem
  cases hstep with
  | issue request =>
    cases hpending
    exact Nat.lt_succ_of_le (hcoherent.published_le _ (h.published hmem))
  | cancel => cases hpending
  | poll =>
    dsimp only at hpending
    split_ifs at hpending
    exact h.behind pending hpending generation hmem
  | same | host | enqueue | cancelJob | clear | stop | take | work | publish =>
    exact h.behind pending hpending generation hmem

theorem Answered.poll (h : Answered s.view published answered)
    (hcoherent : Coherent s.view published) :
    Answered s.poll.2.view published (answered ++ s.poll.1.answered.toList) := by
  have hview := poll_view s
  have hstep : ViewStep s.view none s.poll.2.view := by
    rw [hview]
    exact .poll
  have hkept := h.step hcoherent hstep
  rw [toList_none, List.append_nil] at hkept
  cases hanswer : s.poll.1.answered with
  | none => simpa using hkept
  | some generation =>
    obtain ⟨completion, hslot, hpending, hgeneration⟩ := poll_answered hanswer
    obtain ⟨hsame, hmem⟩ := hcoherent.slot completion hslot
    rw [hsame] at hgeneration
    subst hgeneration
    rw [toList_some]
    refine ⟨?_, ?_, ?_⟩
    · exact List.append_subset.mpr ⟨h.published, by simpa using hmem⟩
    · refine List.pairwise_append.mpr ⟨h.increasing, List.pairwise_singleton _ _, ?_⟩
      intro earlier hearlier later hlater
      rw [List.mem_singleton.mp hlater]
      exact h.behind _ hpending earlier hearlier
    · intro pending hnext
      rw [hview, hslot, map_some, if_pos hpending] at hnext
      cases hnext

/-- Answers come in the order of their generations, each once and after its
publication, and a poll answers nothing but the generation that is pending. -/
theorem answers_increase
    (hreach : (answeredRuns W budget).Reachable ((s, published), answered)) :
    answered.Pairwise (· < ·) ∧ answered ⊆ published ∧
      (∀ pending, s.pendingGeneration = some pending → ∀ earlier ∈ answered, earlier < pending) ∧
      ∀ answer, s.poll.1.answered = some answer →
        s.pendingGeneration = some answer ∧ answer = s.nextGeneration ∧ answer ∈ published := by
  have hinv : Coherent s.view published ∧ Answered s.view published answered := by
    refine hreach.invariant
      (P := fun p => Coherent p.1.1.view p.1.2 ∧ Answered p.1.1.view p.1.2 p.2) ?_ ?_
    · rintro ⟨⟨s, published⟩, answered⟩ ⟨⟨rfl, rfl⟩, rfl⟩
      exact ⟨coherent_new budget, by simp, .nil, by simp⟩
    · rintro ⟨⟨s, published⟩, answered⟩ label ⟨⟨t, published'⟩, answered'⟩ ⟨hcoherent, h⟩ hstep
      obtain ⟨hstep, rfl⟩ := Machine.observe_step_eq_some.mp hstep
      obtain ⟨hstep, rfl⟩ := Machine.observe_step_eq_some.mp hstep
      have hview := preparationStep_view hstep
      refine ⟨hcoherent.step hview, ?_⟩
      have hkept := h.step hcoherent hview
      cases label with
      | worker | source | ledger => rwa [List.append_nil]
      | host action =>
        cases action with
        | submit | cancelPending | takeReady | clearReady | drop | proceed => rwa [List.append_nil]
        | poll =>
          obtain rfl := eq_poll hstep
          simpa [publishes] using h.poll hcoherent
  obtain ⟨hcoherent, h⟩ := hinv
  refine ⟨h.increasing, h.published, h.behind, ?_⟩
  intro answer hanswer
  obtain ⟨completion, hslot, hpending, hgeneration⟩ := poll_answered hanswer
  obtain ⟨hsame, hmem⟩ := hcoherent.slot completion hslot
  obtain rfl := hsame.symm.trans hgeneration
  exact ⟨hpending, hcoherent.pending_eq _ hpending, hmem⟩

end

/-- A prepared scene is answered. -/
theorem answers_increase_scene :
    ∃ s published, (answeredRuns (Fin 2) .default).Reachable ((s, published), [1]) ∧
      [1] ⊆ published := by
  have hstart : (answeredRuns (Fin 2) .default).start ((new .default, []), []) := ⟨⟨rfl, rfl⟩, rfl⟩
  have hrun : (answeredRuns (Fin 2) .default).exec ((new .default, []), [])
      (submission ⟨4, by decide⟩ ++ preparation 0 ++ [.worker 0, .host .poll]) =
    some ((_, _), [1]) := rfl
  have hreach := Machine.reachable_of_exec hstart hrun
  exact ⟨_, _, hreach, (answers_increase hreach).2.1⟩

end CollideOScope.Preparation
