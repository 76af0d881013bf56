import CollideOScope.Autopilot.Scheduler

/-!
# What a call of the scheduler can do

Every call is silent, cancels the current epoch, commits the expected target,
or plays a plan.  This module says so once, with the fields each of these
effects may change; results about whole runs are case analyses of effects.
-/

namespace CollideOScope.Autopilot

open List AutopilotScheduler

/-- The states in which no sequence is under way. -/
def AutopilotState.idle : AutopilotState → Bool
  | .stopped => true
  | .faulted => true
  | .complete => true
  | _ => false

def Resumable (s : AutopilotScheduler) : Prop :=
  ∀ state, s.resumeState = some state → state.live = true

structure Silent (s t : AutopilotScheduler) : Prop where
  epoch_eq : t.epoch = s.epoch
  nextSequence_eq : t.nextSequence = s.nextSequence
  activeCursor_eq : t.activeCursor = s.activeCursor
  lastCommit_eq : t.lastCommit = s.lastCommit
  expected_eq : t.expected = s.expected ∨ t.expected = none
  faulted_iff : t.state = .faulted ↔ s.state = .faulted
  idle : t.state.idle = true → s.state.idle = true ∨ t.expected = none
  resumable : Resumable s → Resumable t

structure Cancelled (s t : AutopilotScheduler) : Prop where
  epoch_eq : t.epoch = s.advanceEpoch.epoch
  lastCommit_eq : t.lastCommit = none
  state_eq : t.state = .faulted ∨ t.state = .stopped ∧ t.activeCursor = none ∧ t.nextSequence = 0
  dueMediaBeat_eq : t.dueMediaBeat = none
  expected_eq : t.expected = none
  resumable : Resumable t

/-- The target was made the expected one, as the next of its epoch. -/
structure Prepared (s t : AutopilotScheduler) (target : AutopilotTarget) : Prop where
  epoch_eq : target.epoch = t.epoch
  sequence_eq : target.sequence = s.nextSequence
  nextSequence_eq : t.nextSequence = s.nextSequence + 1
  expected_eq : t.expected = some target

/-- The expected target was committed, and a lookahead target may have been
prepared. -/
structure Committed (s t : AutopilotScheduler) (target : AutopilotTarget)
    (lookahead : Option AutopilotTarget) : Prop where
  expected_eq : s.expected = some target
  ready : s.expectedReady = true
  live : s.state.live = true
  epoch_eq : t.epoch = s.epoch
  activeCursor_eq : t.activeCursor = some target.stepIndex
  lastCommit_eq : t.lastCommit = some (target, s.activeCursor)
  state_eq : t.state = .running
  prepared : ∀ next, lookahead = some next → Prepared s t next
  last : lookahead = none → t.expected = none ∧ t.nextSequence = s.nextSequence
  resumable : Resumable s → Resumable t

/-- What a frame can do after its readiness snapshot. -/
inductive FrameEffect (s : AutopilotScheduler) : AutopilotCommands × AutopilotScheduler → Prop
  | silent {t : AutopilotScheduler} (effect : Silent s t) : FrameEffect s ([], t)
  | cancel {t : AutopilotScheduler} (effect : Cancelled s t) :
      FrameEffect s ([.cancelOwned s.epoch], t)
  | commit {t : AutopilotScheduler} {target : AutopilotTarget}
      {lookahead : Option AutopilotTarget}
      (effect : Committed s t target lookahead) :
      FrameEffect s (.commit target :: lookahead.toList.map .prepare, t)

section

variable {s t : AutopilotScheduler}

theorem Silent.refl (s : AutopilotScheduler) : Silent s s :=
  ⟨rfl, rfl, rfl, rfl, .inl rfl, Iff.rfl, Or.inl, id⟩

theorem resumable_none (h : s.resumeState = none) : Resumable s := by
  intro state hst
  rw [h] at hst
  cases hst

theorem cancelled_enterFault (s : AutopilotScheduler)
    (fault : AutopilotFault) : Cancelled s (s.enterFault fault).2 :=
  ⟨rfl, rfl, .inl rfl, rfl, rfl, resumable_none rfl⟩

theorem prepareStep_effect (s : AutopilotScheduler) (index : ℕ) :
    s.prepareStep index = ([], s) ∨
      ∃ target, (s.prepareStep index).1 = [.prepare target] ∧
        Prepared s (s.prepareStep index).2 target ∧
        (s.prepareStep index).2 =
          { s with
            nextSequence := s.nextSequence + 1
            expected := some target
            expectedReady := false } := by
  unfold prepareStep
  cases s.plan.bind fun plan => plan.steps[index]? with
  | none => exact .inl rfl
  | some step => exact .inr ⟨_, rfl, ⟨rfl, rfl, rfl, rfl⟩, rfl⟩

theorem commitExpected_effect (hready : s.expectedReady = true)
    (hlive : s.state.live = true) : FrameEffect s s.commitExpected := by
  have hdrop (plan : Option AutopilotPlan) : Silent s { s with expected := none, plan := plan } :=
    ⟨rfl, rfl, rfl, rfl, .inr rfl, Iff.rfl, Or.inl, id⟩
  unfold commitExpected
  cases hexp : s.expected with
  | none => exact .silent (.refl s)
  | some target =>
    cases s.plan with
    | none => exact .silent (hdrop none)
    | some plan =>
      dsimp only
      cases plan.steps[target.stepIndex]? with
      | none => exact .silent (hdrop (some plan))
      | some step =>
        have hcom : FrameEffect s ([.commit target], s.committed target step) := by
          have heff : Committed s (s.committed target step) target
              none := ⟨hexp, hready, hlive, rfl, rfl, rfl, rfl,
            nofun, fun _ => ⟨rfl, rfl⟩, id⟩
          exact .commit heff
        dsimp only [prepareNext]
        cases nextIndex plan target.stepIndex with
        | none => exact hcom
        | some index =>
          dsimp only
          rcases prepareStep_effect (s.committed target step) index
            with hnone | ⟨next, hcmd, hprep, hst⟩
          · rw [hnone]
            exact hcom
          · rw [hcmd, hst]
            rw [hst] at hprep
            have heff : Committed s
                { s.committed target step with
                  nextSequence := s.nextSequence + 1
                  expected := some next
                  expectedReady := false } target (some next) := by
              refine ⟨hexp, hready, hlive, rfl, rfl, rfl, rfl, ?_, nofun, id⟩
              intro other hother
              cases hother
              exact ⟨hprep.epoch_eq, hprep.sequence_eq, hprep.nextSequence_eq, hprep.expected_eq⟩
            exact .commit heff

theorem releaseFrame_effect (s : AutopilotScheduler) : FrameEffect s s.releaseFrame := by
  have hcom (hlive : s.state.live = true) :
      FrameEffect s (if s.expectedReady then s.commitExpected else ([], s)) := by
    by_cases hready : s.expectedReady = true
    · rw [if_pos hready]
      exact commitExpected_effect hready hlive
    · rw [if_neg hready]
      exact .silent (.refl s)
  unfold releaseFrame
  cases hst : s.state with
  | starting | stalled => exact hcom (by rw [hst]; rfl)
  | running =>
    cases s.dueMediaBeat with
    | none => exact .cancel (cancelled_enterFault s .invariant)
    | some due =>
      dsimp only
      by_cases hearly : s.acceptedMediaBeats < due
      · rw [if_pos hearly]
        exact .silent (.refl s)
      rw [if_neg hearly]
      by_cases hlast : s.expected = none
      · rw [if_pos hlast]
        refine .silent ⟨rfl, rfl, rfl, rfl, .inl rfl, ?_, ?_, id⟩
        · rw [hst]
          exact iff_of_false nofun nofun
        · exact fun _ => .inr hlast
      rw [if_neg hlast]
      by_cases hready : s.expectedReady = true
      · rw [if_pos hready]
        exact commitExpected_effect hready (by rw [hst]; rfl)
      · rw [if_neg hready]
        refine .silent ⟨rfl, rfl, rfl, rfl, .inl rfl, ?_, nofun, id⟩
        rw [hst]
        exact iff_of_false nofun nofun
  | stopped | paused | faulted | complete => exact .silent (.refl s)

theorem FrameEffect.of_beats {beats : ℕ} {suppress : Bool}
    {result : AutopilotCommands × AutopilotScheduler}
    (h : FrameEffect
      { s with
        acceptedMediaBeats := beats
        suppressFirstReleaseFrame := suppress } result) :
    FrameEffect s result := by
  cases h with
  | silent effect =>
    obtain ⟨h₁, h₂, h₃, h₄, h₅, h₆, h₇, h₈⟩ := effect
    exact .silent ⟨h₁, h₂, h₃, h₄, h₅, h₆, h₇, h₈⟩
  | cancel effect =>
    obtain ⟨h₁, h₂, h₃, h₄, h₅, h₆⟩ := effect
    exact .cancel ⟨h₁, h₂, h₃, h₄, h₅, h₆⟩
  | commit effect =>
    obtain ⟨h₁, h₂, h₃, h₄, h₅, h₆, h₇, h₈, h₉, h₀⟩ := effect
    refine .commit ⟨h₁, h₂, h₃, h₄, h₅, h₆, h₇, ?_, h₉, h₀⟩
    intro next hnext
    obtain ⟨g₁, g₂, g₃, g₄⟩ := h₈ next hnext
    exact ⟨g₁, g₂, g₃, g₄⟩

theorem runFrame_effect (s : AutopilotScheduler)
    (input : AutopilotFrameInput) : FrameEffect s (s.runFrame input) := by
  unfold runFrame
  by_cases hlive : (!s.state.live) = true
  · rw [if_pos hlive]
    exact .silent (.refl s)
  rw [if_neg hlive]
  by_cases hsuppress : s.suppressFirstReleaseFrame = true
  · rw [if_pos hsuppress]
    exact .silent ⟨rfl, rfl, rfl, rfl, .inl rfl, Iff.rfl, Or.inl, id⟩
  rw [if_neg hsuppress]
  by_cases hfrozen : (!input.mediaRunning ||
      decide (input.crossedBeats = 0)) = true
  · rw [if_pos hfrozen]
    exact .silent (.refl s)
  rw [if_neg hfrozen]
  exact (releaseFrame_effect _).of_beats

theorem acceptReadiness_effect (s : AutopilotScheduler)
    (readiness : AutopilotReadinessBeforeFrame) :
    (∃ t, s.acceptReadiness readiness = ([], t) ∧ Silent s t) ∨
      ∃ target, s.expected = some target ∧
        s.acceptReadiness readiness = s.enterFault (.preparation target) := by
  cases readiness with
  | pending => exact .inl ⟨s, rfl, .refl s⟩
  | ready target =>
    refine .inl ?_
    by_cases hnamed : s.expected = some target
    · exact ⟨_, if_pos hnamed, rfl, rfl, rfl, rfl, .inl rfl, Iff.rfl, Or.inl, id⟩
    · exact ⟨s, if_neg hnamed, .refl s⟩
  | faulted target =>
    by_cases hnamed : s.expected = some target
    · exact .inr ⟨target, hnamed, if_pos hnamed⟩
    · exact .inl ⟨s, if_neg hnamed, .refl s⟩

end

inductive SchedulerCall where
  | play (plan : AutopilotPlan) (scenes : Scenes)
  | reset | pause | resume
  | advanceFrame (input : AutopilotFrameInput)
  | fault (fault : AutopilotFault)

/-- The commands of a call, those of a failed play included, and the scheduler
after it. -/
def AutopilotScheduler.call (s : AutopilotScheduler) :
    SchedulerCall → AutopilotCommands × AutopilotScheduler
  | .play plan scenes =>
    match s.play plan scenes with
    | (.ok commands, t) => (commands, t)
    | (.error failure, t) => (failure.commands, t)
  | .reset => s.reset
  | .pause => ([], s.pause.2)
  | .resume => ([], s.resume.2)
  | .advanceFrame input => s.advanceFrame input
  | .fault fault => s.reportFault fault

inductive CallEffect (s : AutopilotScheduler) : AutopilotCommands × AutopilotScheduler → Prop
  | frame {u : AutopilotScheduler}
      {result : AutopilotCommands × AutopilotScheduler}
      (snapshot : Silent s u) (effect : FrameEffect u result) :
      CallEffect s result
  | play {u t : AutopilotScheduler} {target : AutopilotTarget}
      (cancelled : Cancelled s u) (stopped : u.state = .stopped)
      (effect : Prepared u t target) (epoch_eq : t.epoch = u.epoch)
      (state_eq : t.state = .starting) (active_eq : t.activeCursor = none)
      (last_eq : t.lastCommit = none) (resumable : Resumable t) :
      CallEffect s ([.cancelOwned s.epoch, .prepare target], t)

section

variable {s : AutopilotScheduler} {t : AutopilotScheduler}

theorem CallEffect.cancel (h : Cancelled s t) : CallEffect s ([.cancelOwned s.epoch], t) :=
  .frame (.refl s) (.cancel h)

theorem CallEffect.silent (h : Silent s t) : CallEffect s ([], t) := .frame h (.silent (.refl t))

theorem cancelled_reset (s : AutopilotScheduler) : Cancelled s s.reset.2 :=
  ⟨rfl, rfl, .inr ⟨rfl, rfl, rfl⟩, rfl, rfl, resumable_none rfl⟩

theorem cancelled_reportFault (s : AutopilotScheduler) (fault : AutopilotFault) :
    s.reportFault fault = ([.cancelOwned s.epoch], (s.reportFault fault).2) ∧
      Cancelled s (s.reportFault fault).2 := by
  have hepoch : (s.rollback fault).epoch = s.epoch := by
    unfold rollback
    split
    · split <;> rfl
    · rfl
  unfold reportFault
  refine ⟨?_, ?_⟩
  · rw [← hepoch]
    rfl
  · obtain ⟨-, h₂, h₃, h₄, h₅, h₆⟩ := cancelled_enterFault (s.rollback fault) fault
    refine ⟨?_, h₂, h₃, h₄, h₅, h₆⟩
    simp only [enterFault, advanceEpoch, hepoch]

theorem silent_pause (s : AutopilotScheduler) : Silent s s.pause.2 := by
  unfold pause
  by_cases hlive : s.state.live = true
  · rw [if_pos hlive]
    refine ⟨rfl, rfl, rfl, rfl, .inl rfl, ?_, nofun, ?_⟩
    · refine iff_of_false nofun ?_
      intro hfault
      rw [hfault] at hlive
      cases hlive
    · intro _ state hst
      cases hst
      exact hlive
  · rw [if_neg hlive]
    exact .refl s

theorem silent_resume (h : Resumable s) : Silent s s.resume.2 := by
  unfold resume
  by_cases hpaused : s.state = .paused
  · rw [if_neg (not_not_intro hpaused)]
    have hlive : (s.resumeState.getD .running).live = true := by
      cases hresume : s.resumeState with
      | none => rfl
      | some state => exact h state hresume
    refine ⟨rfl, rfl, rfl, rfl, .inl rfl, ?_, ?_, fun _ => nofun⟩
    · rw [hpaused]
      refine iff_of_false ?_ nofun
      intro hfault
      dsimp only at hfault
      rw [hfault] at hlive
      cases hlive
    · intro hidle
      dsimp only at hidle
      cases hst : s.resumeState.getD .running <;>
        simp_all [AutopilotState.live, AutopilotState.idle]
  · rw [if_pos hpaused]
    exact .refl s

theorem call_play_effect (s : AutopilotScheduler) (plan : AutopilotPlan)
    (scenes : Scenes) : CallEffect s (s.call (.play plan scenes)) := by
  unfold AutopilotScheduler.call AutopilotScheduler.play
  by_cases hemp : plan.isEmpty = true
  · simp only [hemp, if_true]
    exact .silent (.refl s)
  simp only [hemp]
  cases plan.validateScenes scenes with
  | error issue => exact .cancel ⟨rfl, rfl, .inl rfl, rfl, rfl, resumable_none rfl⟩
  | ok _ =>
    dsimp only
    rcases prepareStep_effect
        { s.advanceEpoch.clearSequenceState with
          plan := some plan
          state := .starting
          suppressFirstReleaseFrame := true } 0 with
      hnone | ⟨target, hcmd, hprep, hst⟩
    · have hsome : 0 < plan.steps.length := by
        apply length_pos_iff.mpr
        simpa [AutopilotPlan.isEmpty] using hemp
      unfold prepareStep at hnone
      simp only [Option.bind_some, getElem?_eq_getElem hsome,
        Prod.mk.injEq, reduceCtorEq, false_and] at hnone
    · rw [hcmd, hst]
      rw [hst] at hprep
      exact .play (u := s.reset.2) (cancelled_reset s) rfl
        ⟨hprep.epoch_eq, hprep.sequence_eq, hprep.nextSequence_eq, hprep.expected_eq⟩
        rfl rfl rfl rfl (resumable_none rfl)

theorem call_effect (h : Resumable s) (call : SchedulerCall) : CallEffect s (s.call call) := by
  cases call with
  | play plan scenes => exact call_play_effect s plan scenes
  | reset => exact .cancel (cancelled_reset s)
  | pause => exact .silent (silent_pause s)
  | resume => exact .silent (silent_resume h)
  | advanceFrame input =>
    change CallEffect s (s.advanceFrame input)
    rcases acceptReadiness_effect s input.readinessBeforeFrame with
      ⟨t, hacc, hsilent⟩ | ⟨target, -, hfault⟩
    · rw [advanceFrame_of_quiet hacc]
      exact .frame hsilent (runFrame_effect t input)
    · rw [advanceFrame_of_enterFault hfault]
      exact .cancel (cancelled_enterFault s _)
  | fault fault =>
    obtain ⟨hres, hcanc⟩ := cancelled_reportFault s fault
    change CallEffect s (s.reportFault fault)
    rw [hres]
    exact .cancel hcanc

theorem CallEffect.expected_of_commit
    {result : AutopilotCommands × AutopilotScheduler}
    (h : CallEffect s result) {target : AutopilotTarget}
    (hcom : .commit target ∈ result.1) : s.expected = some target := by
  cases h with
  | frame snapshot effect =>
    cases effect with
    | silent effect => cases hcom
    | cancel effect => cases mem_singleton.mp hcom
    | @commit t other lookahead effect =>
      have hsame : target = other := by
        cases lookahead <;> simpa using hcom
      rcases snapshot.expected_eq with hexp | hnone
      · rw [← hexp, effect.expected_eq, hsame]
      · exact absurd (hnone.symm.trans effect.expected_eq) nofun
  | play => simp only [mem_cons, reduceCtorEq, not_mem_nil, or_self] at hcom

end

end CollideOScope.Autopilot
