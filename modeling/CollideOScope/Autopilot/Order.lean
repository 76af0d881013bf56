import CollideOScope.Autopilot.Effects

/-!
# Autopilot order and pacing

A run begins with a successful `play` and continues with frames, pauses and
resumes.  Its history is the list of commits with the beats accepted before
each of them, the outstanding preparation, and the crossings of all frames.
-/

namespace CollideOScope.Autopilot

open AutopilotScheduler List Option Nat Bool

inductive AutopilotCall where
  | advanceFrame (input : AutopilotFrameInput)
  | pause | resume

structure AutopilotTrace where
  /-- The commits in order, each with the media beats accepted since the one
  before it. -/
  commits : List (AutopilotTarget × ℕ)
  /-- The media beats accepted since the last commit. -/
  held : ℕ
  /-- The prepared targets that were neither committed nor cancelled, each with
  whether a `Ready` snapshot has named it since. -/
  outstanding : List (AutopilotTarget × Bool)

namespace AutopilotTrace

def start : AutopilotTrace := ⟨[], 0, []⟩

def observe (g : AutopilotTrace) (readiness : AutopilotReadinessBeforeFrame) : AutopilotTrace :=
  match readiness with
  | .ready target =>
    { g with
      outstanding := g.outstanding.map fun prepared =>
        (prepared.1, prepared.2 || decide (target = prepared.1)) }
  | _ => g

/-- Note the beats of a frame.  They are accepted while the scheduler and the
media are running. -/
def elapse (g : AutopilotTrace) (s : AutopilotScheduler)
    (input : AutopilotFrameInput) : AutopilotTrace :=
  { g with
    held :=
      if s.state = .running ∧ input.mediaRunning = true then g.held + input.crossedBeats.toNat
      else g.held }

def emit (g : AutopilotTrace) : AutopilotCommand → AutopilotTrace
  | .cancelOwned _ => { g with outstanding := [] }
  | .prepare target => { g with outstanding := g.outstanding ++ [(target, false)] }
  | .commit target =>
    { g with
      commits := g.commits ++ [(target, g.held)]
      held := 0
      outstanding := g.outstanding.filter (·.1 ≠ target) }

def next (g : AutopilotTrace) (s : AutopilotScheduler) : AutopilotCall → AutopilotTrace
  | .advanceFrame input =>
    (s.advanceFrame input).1.foldl emit ((g.observe input.readinessBeforeFrame).elapse s input)
  | .pause => g
  | .resume => g

theorem held_le_elapse (g : AutopilotTrace) (s : AutopilotScheduler)
    (input : AutopilotFrameInput) : g.held ≤ (g.elapse s input).held := by
  unfold elapse
  by_cases hrun : s.state = .running ∧ input.mediaRunning = true
  · rw [if_pos hrun]
    exact le_add_right _ _
  · rw [if_neg hrun]

@[simp] theorem observe_commits (g : AutopilotTrace)
    (readiness : AutopilotReadinessBeforeFrame) :
    (g.observe readiness).commits = g.commits := by
  cases readiness <;> rfl

theorem next_advanceFrame (g : AutopilotTrace) (s : AutopilotScheduler)
    (input : AutopilotFrameInput) :
    g.next s (.advanceFrame input) =
      (s.advanceFrame input).1.foldl emit ((g.observe input.readinessBeforeFrame).elapse s input) :=
  rfl

end AutopilotTrace

def autopilotStep (s : AutopilotScheduler) : AutopilotCall → Option AutopilotScheduler
  | .advanceFrame input => some (s.advanceFrame input).2
  | .pause => some s.pause.2
  | .resume => some s.resume.2

def playCommands (before : AutopilotScheduler) (plan : AutopilotPlan)
    (scenes : Scenes) : AutopilotCommands :=
  match (before.play plan scenes).1 with
  | .ok commands => commands
  | .error failure => failure.commands

/-- The runs that follow a successful play, with their history. -/
def autopilotRuns (before : AutopilotScheduler) (plan : AutopilotPlan) (scenes : Scenes) :
    Machine (AutopilotScheduler × AutopilotTrace) AutopilotCall :=
  Machine.observe
    { start := fun s =>
        (∃ commands, (before.play plan scenes).1 = .ok commands) ∧ s = (before.play plan scenes).2
      step := autopilotStep }
    ((playCommands before plan scenes).foldl AutopilotTrace.emit .start)
    fun g s call _ => g.next s call

/-- The target is the one of the `i`-th occurrence of a step in the plan. -/
structure Names (plan : AutopilotPlan) (epoch : UInt64) (i : ℕ)
    (target : AutopilotTarget) : Prop where
  epoch_eq : target.epoch = epoch
  sequence_eq : target.sequence.toNat = i
  index_eq : target.stepIndex = i % plan.len
  scene_eq : ∃ step, plan.steps[target.stepIndex]? = some step ∧ step.sceneId = target.sceneId

/-- The hold of the `i`-th occurrence of a step. -/
def holdAt (plan : AutopilotPlan) (i : ℕ) : ℕ := plan.steps[i % plan.len]?.elim 0 (·.holdBeats)

/-- The commits follow the plan and respect its holds. -/
structure CommitLog (plan : AutopilotPlan) (epoch : UInt64)
    (commits : List (AutopilotTarget × ℕ)) : Prop where
  names : ∀ i commit, commits[i]? = some commit → Names plan epoch i commit.1
  within : plan.repeats = .once → commits.length ≤ plan.len
  paced : ∀ i commit, commits[i + 1]? = some commit → holdAt plan i ≤ commit.2

/-- What the phase of the scheduler says about the due beat. -/
inductive Pacing (plan : AutopilotPlan) (s : AutopilotScheduler)
    (g : AutopilotTrace) : AutopilotState → Prop
  | starting (first : g.commits = []) (expected : s.expected ≠ none) : Pacing plan s g .starting
  | running {since : ℕ} (begun : g.commits ≠ [])
      (released : s.suppressFirstReleaseFrame = false)
      (accepted : s.acceptedMediaBeats = since + g.held)
      (due : s.dueMediaBeat = some (since + holdAt plan (g.commits.length - 1))) :
      Pacing plan s g .running
  | stalled (begun : g.commits ≠ [])
      (released : s.suppressFirstReleaseFrame = false)
      (expected : s.expected ≠ none)
      (elapsed : holdAt plan (g.commits.length - 1) ≤ g.held) :
      Pacing plan s g .stalled
  | complete (begun : g.commits ≠ []) (last : s.expected = none)
      (elapsed : holdAt plan (g.commits.length - 1) ≤ g.held) :
      Pacing plan s g .complete

def InPhase (s : AutopilotScheduler) (phase : AutopilotState) : Prop :=
  s.state = phase ∨ s.state = .paused ∧ s.resumeState = some phase ∧ phase.live = true

/-- The invariant of an epoch that did not fault. -/
structure Following (plan : AutopilotPlan) (epoch : UInt64)
    (s : AutopilotScheduler) (g : AutopilotTrace) (phase : AutopilotState) :
    Prop where
  inPhase : InPhase s phase
  pacing : Pacing plan s g phase
  plan_eq : s.plan = some plan
  epoch_eq : s.epoch = epoch
  fault_eq : s.fault = none
  outstanding_eq : g.outstanding = (s.expected.map fun target => (target, s.expectedReady)).toList
  next_eq : s.expected ≠ none → s.nextSequence.toNat = g.commits.length + 1
  expected : ∀ target, s.expected = some target →
    Names plan epoch g.commits.length target ∧ (plan.repeats = .once → g.commits.length < plan.len)
  finished : s.expected = none → plan.repeats = .once ∧ g.commits.length = plan.len
  length_le : g.commits.length ≤ s.acceptedMediaBeats

/-- The epoch ended by a reported preparation fault. -/
structure Ended (s : AutopilotScheduler) (g : AutopilotTrace) : Prop where
  state_eq : s.state = .faulted
  fault_eq : ∃ target, s.fault = some (.preparation target)
  expected_eq : s.expected = none
  outstanding_eq : g.outstanding = []

structure OrderInvariant (plan : AutopilotPlan) (epoch : UInt64)
    (s : AutopilotScheduler) (g : AutopilotTrace) : Prop where
  log : CommitLog plan epoch g.commits
  alive : Ended s g ∨ ∃ phase, Following plan epoch s g phase

section

variable {plan : AutopilotPlan} {epoch : UInt64} {s t : AutopilotScheduler}
  {g g' : AutopilotTrace} {phase : AutopilotState}

theorem Pacing.elapse (h : Pacing plan s g phase)
    (hrel : s.suppressFirstReleaseFrame = false → t.suppressFirstReleaseFrame = false)
    (hdue : t.dueMediaBeat = s.dueMediaBeat) (hexp : t.expected = s.expected)
    (hcommits : g'.commits = g.commits) (hheld : g.held ≤ g'.held)
    (hrun : phase = .running → t.acceptedMediaBeats + g.held = s.acceptedMediaBeats + g'.held) :
    Pacing plan t g' phase := by
  cases h with
  | starting first expected => exact .starting (hcommits.trans first) (hexp ▸ expected)
  | running begun released accepted due =>
    refine .running (hcommits ▸ begun) (hrel released) ?_ (hcommits ▸ hdue.trans due)
    have hsame := hrun rfl
    omega
  | stalled begun released expected elapsed =>
    refine .stalled (hcommits ▸ begun) (hrel released) (hexp ▸ expected) ?_
    rw [hcommits]
    exact elapsed.trans hheld
  | complete begun last elapsed =>
    refine .complete (hcommits ▸ begun) (hexp.trans last) ?_
    rw [hcommits]
    exact elapsed.trans hheld

variable {target : AutopilotTarget}

theorem CommitLog.append {commits : List (AutopilotTarget × ℕ)} (h : CommitLog plan epoch commits)
    {held : ℕ} (hnames : Names plan epoch commits.length target)
    (hwith : plan.repeats = .once → commits.length < plan.len)
    (hpaced : commits ≠ [] → holdAt plan (commits.length - 1) ≤ held) :
    CommitLog plan epoch (commits ++ [(target, held)]) := by
  refine ⟨?_, ?_, ?_⟩
  · intro i commit hcom
    by_cases hi : i < commits.length
    · rw [getElem?_append_left hi] at hcom
      exact h.names i commit hcom
    · have hlt := (List.getElem?_eq_some_iff.mp hcom).1
      rw [length_append, length_singleton] at hlt
      obtain rfl : i = commits.length := by omega
      rw [getElem?_concat_length] at hcom
      cases hcom
      exact hnames
  · intro honce
    rw [length_append, length_singleton]
    exact hwith honce
  · intro i commit hcom
    by_cases hi : i + 1 < commits.length
    · rw [getElem?_append_left hi] at hcom
      exact h.paced i commit hcom
    · have hlt := (List.getElem?_eq_some_iff.mp hcom).1
      rw [length_append, length_singleton] at hlt
      have hlast : i + 1 = commits.length := by omega
      rw [hlast, getElem?_concat_length] at hcom
      cases hcom
      have hpre := hpaced (ne_nil_of_length_eq_add_one hlast.symm)
      rwa [← hlast, Nat.add_sub_cancel] at hpre

/-- The step after the `i`-th one, or the end of a plan that runs once. -/
theorem nextIndex_spec (hlen : 0 < plan.len) (i : ℕ) :
    nextIndex plan (i % plan.len) = some ((i + 1) % plan.len) ∧
        (plan.repeats = .once → i < plan.len → i + 1 < plan.len) ∨
      nextIndex plan (i % plan.len) = none ∧ plan.repeats = .once ∧
        i % plan.len + 1 = plan.len := by
  have hmod := mod_lt i hlen
  unfold nextIndex
  by_cases hnext : i % plan.len + 1 < plan.len
  · rw [if_pos hnext]
    refine .inl ⟨?_, ?_⟩
    · rw [← mod_add_mod, mod_eq_of_lt hnext]
    · intro _ hi
      rwa [mod_eq_of_lt hi] at hnext
  · have hlast : i % plan.len + 1 = plan.len := by omega
    rw [if_neg hnext]
    cases hrepeats : plan.repeats with
    | once => exact .inr ⟨rfl, rfl, hlast⟩
    | loop =>
      refine .inl ⟨?_, nofun⟩
      have hwrap : (i + 1) % plan.len = 0 := by rw [← mod_add_mod, hlast, mod_self]
      rw [hwrap]
      rfl

variable {i : ℕ}

theorem holdAt_of_step {step : AutopilotStep} (h : plan.steps[i % plan.len]? = some step) :
    holdAt plan i = step.holdBeats := by
  rw [holdAt, h, elim_some]

theorem prepareStep_spec (hplan : s.plan = some plan) (hlen : 0 < plan.len)
    (hseq : s.nextSequence.toNat = i) (hroom : i < u64Max) :
    ∃ target, s.prepareStep (i % plan.len) =
        ([.prepare target],
          { s with
            nextSequence := s.nextSequence + 1
            expected := some target
            expectedReady := false }) ∧
      Names plan s.epoch i target ∧
      (s.nextSequence + 1).toNat = i + 1 := by
  have hidx : i % plan.len < plan.steps.length := mod_lt i hlen
  obtain ⟨step, hstep⟩ : ∃ step, plan.steps[i % plan.len]? = some step :=
    ⟨_, getElem?_eq_getElem hidx⟩
  refine ⟨⟨s.epoch, s.nextSequence, i % plan.len, step.sceneId⟩, ?_, ?_, ?_⟩
  · simp [prepareStep, hplan, hstep]
  · exact ⟨rfl, hseq, rfl, step, hstep, rfl⟩
  · rw [UInt64.toNat_add, UInt64.toNat_one, hseq]
    apply mod_eq_of_lt
    unfold u64Max at hroom
    omega

theorem Following.commitExpected (h : Following plan epoch s g phase)
    (hlog : CommitLog plan epoch g.commits) (hexp : s.expected = some target)
    (hrel : s.suppressFirstReleaseFrame = false)
    (hpaced : g.commits ≠ [] → holdAt plan (g.commits.length - 1) ≤ g.held)
    (hroom : g.commits.length < s.acceptedMediaBeats)
    (hbd : s.acceptedMediaBeats + maxAutopilotHoldBeats ≤ u64Max) :
    Following plan epoch s.commitExpected.2 (s.commitExpected.1.foldl .emit g) .running ∧
      CommitLog plan epoch (s.commitExpected.1.foldl .emit g).commits := by
  obtain ⟨hnames, hwith⟩ := h.expected target hexp
  obtain ⟨step, hstep, hscene⟩ := hnames.scene_eq
  have hnext := h.next_eq (by rw [hexp]; nofun)
  have hlen : 0 < plan.len := by
    have hlt := (List.getElem?_eq_some_iff.mp hstep).1
    exact zero_lt_of_lt hlt
  have hhold : holdAt plan g.commits.length = step.holdBeats := by
    apply holdAt_of_step
    rw [← hnames.index_eq]
    exact hstep
  have hmax : maxAutopilotHoldBeats = 256 := rfl
  have hdue : saturatingAddU64 s.acceptedMediaBeats step.holdBeats =
      s.acceptedMediaBeats + holdAt plan g.commits.length := by
    rw [hhold]
    apply saturatingAddU64_of_le
    have hle := step.holdBeats.property.2
    omega
  have happ := hlog.append hnames hwith hpaced
  have hcnt : (g.commits ++ [(target, g.held)]).length = g.commits.length + 1 := by
    rw [length_append, length_singleton]
  have hclr : g.outstanding.filter (·.1 ≠ target) = [] := by
    rw [h.outstanding_eq, hexp]
    simp
  have hpacing (t : AutopilotScheduler) (o : List (AutopilotTarget × Bool))
      (hsame : t.suppressFirstReleaseFrame = false)
      (hacc : t.acceptedMediaBeats = s.acceptedMediaBeats)
      (htdue : t.dueMediaBeat = some (s.acceptedMediaBeats + holdAt plan g.commits.length)) :
      Pacing plan t ⟨g.commits ++ [(target, g.held)], 0, o⟩ .running := by
    refine .running (concat_ne_nil _ _) hsame hacc ?_
    rw [hcnt, Nat.add_sub_cancel]
    exact htdue
  rw [commitExpected_of_step hexp h.plan_eq hstep, hnames.index_eq]
  simp only [foldl_cons, AutopilotTrace.emit, hclr]
  unfold prepareNext
  rcases nextIndex_spec hlen g.commits.length with ⟨hidx, honce⟩ | ⟨hidx, honce, hlast⟩
  · obtain ⟨next, hprepare, hnextNames, hsucc⟩ :=
      prepareStep_spec (s := s.committed target step) h.plan_eq hlen hnext (by omega)
    rw [hidx]
    simp only [hprepare]
    refine ⟨⟨.inl rfl, hpacing _ _ hrel rfl (congrArg some hdue),
      h.plan_eq, h.epoch_eq, h.fault_eq, rfl, ?_, ?_, nofun, ?_⟩, happ⟩
    · intro _
      exact hsucc.trans (congrArg (· + 1) hcnt.symm)
    · intro prepared hprep
      cases hprep
      have hepoch : (s.committed target step).epoch = epoch := h.epoch_eq
      rw [hepoch, ← hcnt] at hnextNames
      refine ⟨hnextNames, ?_⟩
      intro hrepeats
      exact hcnt.trans_lt (honce hrepeats (hwith hrepeats))
    · exact hcnt.trans_le hroom
  · rw [hidx]
    refine ⟨⟨.inl rfl, hpacing _ _ hrel rfl (congrArg some hdue), h.plan_eq, h.epoch_eq, h.fault_eq,
      rfl, nofun, nofun, ?_, ?_⟩, happ⟩
    · intro _
      refine ⟨honce, ?_⟩
      rw [mod_eq_of_lt (hwith honce)] at hlast
      exact hcnt.trans hlast
    · exact hcnt.trans_le hroom

section

variable (h : Following plan epoch s g phase)
include h

theorem Following.keep (hpacing : Pacing plan t g' phase)
    (hst : t.state = s.state) (hresume : t.resumeState = s.resumeState)
    (hplan : t.plan = s.plan) (hepoch : t.epoch = s.epoch)
    (hfault : t.fault = s.fault) (hexp : t.expected = s.expected)
    (hnext : t.nextSequence = s.nextSequence)
    (houtstanding : g'.outstanding =
      (t.expected.map fun target => (target, t.expectedReady)).toList)
    (hcommits : g'.commits = g.commits)
    (hacc : s.acceptedMediaBeats ≤ t.acceptedMediaBeats) :
    Following plan epoch t g' phase where
  inPhase := by
    have hph := h.inPhase
    unfold InPhase at hph ⊢
    rwa [hst, hresume]
  pacing := hpacing
  plan_eq := hplan.trans h.plan_eq
  epoch_eq := hepoch.trans h.epoch_eq
  fault_eq := hfault.trans h.fault_eq
  outstanding_eq := houtstanding
  next_eq := by
    rw [hexp, hnext, hcommits]
    exact h.next_eq
  expected := by
    rw [hexp, hcommits]
    exact h.expected
  finished := by
    rw [hexp, hcommits]
    exact h.finished
  length_le := by
    rw [hcommits]
    exact h.length_le.trans hacc

theorem Following.observe (readiness : AutopilotReadinessBeforeFrame) :
    (∃ target, s.acceptReadiness readiness = s.enterFault (.preparation target)) ∨
    ∃ t, s.acceptReadiness readiness = ([], t) ∧ t.state = s.state ∧
      Following plan epoch t (g.observe readiness) phase := by
  cases readiness with
  | pending => exact .inr ⟨s, rfl, rfl, h⟩
  | faulted target =>
    by_cases hnamed : s.expected = some target
    · refine .inl ⟨target, ?_⟩
      simp [acceptReadiness, hnamed]
    · refine .inr ⟨s, ?_, rfl, h⟩
      simp [acceptReadiness, hnamed]
  | ready target =>
    by_cases hnamed : s.expected = some target
    · refine .inr ⟨{ s with expectedReady := true }, ?_, rfl, ?_⟩
      · simp [acceptReadiness, hnamed]
      · refine h.keep ?_ rfl rfl rfl rfl rfl rfl rfl ?_ rfl (le_refl _)
        · exact h.pacing.elapse id rfl rfl rfl (le_refl _) fun _ => rfl
        · simp [AutopilotTrace.observe, h.outstanding_eq, hnamed]
    · refine .inr ⟨s, ?_, rfl, ?_⟩
      · simp [acceptReadiness, hnamed]
      · refine h.keep ?_ rfl rfl rfl rfl rfl rfl rfl ?_ rfl (le_refl _)
        · exact h.pacing.elapse id rfl rfl rfl (le_refl _) fun _ => rfl
        · rw [AutopilotTrace.observe, h.outstanding_eq]
          cases hexp : s.expected with
          | none => rfl
          | some prepared =>
            have hother : target ≠ prepared := by
              rintro rfl
              exact hnamed hexp
            simp [decide_eq_false hother]

theorem Following.releaseFrame (hlog : CommitLog plan epoch g.commits) (hst : s.state = phase)
    (hlive : phase.live = true) (hrel : s.suppressFirstReleaseFrame = false)
    (hroom : g.commits.length < s.acceptedMediaBeats)
    (hbd : s.acceptedMediaBeats + maxAutopilotHoldBeats ≤ u64Max) :
    ∃ phase', Following plan epoch s.releaseFrame.2 (s.releaseFrame.1.foldl .emit g) phase' ∧
      CommitLog plan epoch (s.releaseFrame.1.foldl .emit g).commits := by
  have hcom (hready : s.expected ≠ none)
      (hpaced : g.commits ≠ [] → holdAt plan (g.commits.length - 1) ≤ g.held) :
      Following plan epoch s.commitExpected.2 (s.commitExpected.1.foldl .emit g) .running ∧
        CommitLog plan epoch (s.commitExpected.1.foldl .emit g).commits := by
    obtain ⟨target, htgt⟩ := ne_none_iff_exists'.mp hready
    exact h.commitExpected hlog htgt hrel hpaced hroom hbd
  have hquiet : ∃ phase', Following plan epoch s g phase' ∧
      CommitLog plan epoch g.commits := ⟨phase, h, hlog⟩
  unfold AutopilotScheduler.releaseFrame
  rw [hst]
  cases h.pacing with
  | starting first expected =>
    by_cases hready : s.expectedReady = true
    · simp only [hready, if_true]
      exact ⟨_, hcom expected fun hbegun => absurd first hbegun⟩
    · simp only [hready, false_eq_true, if_false]
      exact hquiet
  | running begun released accepted due =>
    rename_i since
    simp only [due]
    by_cases hearly : s.acceptedMediaBeats < since + holdAt plan (g.commits.length - 1)
    · rw [if_pos hearly]
      exact hquiet
    have helapsed : holdAt plan (g.commits.length - 1) ≤ g.held := by omega
    rw [if_neg hearly]
    by_cases hlast : s.expected = none
    · rw [if_pos hlast]
      refine ⟨.complete, ⟨.inl rfl, .complete begun hlast helapsed, h.plan_eq, h.epoch_eq,
        h.fault_eq, h.outstanding_eq, h.next_eq, h.expected, h.finished, h.length_le⟩, hlog⟩
    rw [if_neg hlast]
    by_cases hready : s.expectedReady = true
    · rw [if_pos hready]
      exact ⟨_, hcom hlast fun _ => helapsed⟩
    · rw [if_neg hready]
      refine ⟨.stalled, ⟨.inl rfl, .stalled begun released hlast helapsed, h.plan_eq, h.epoch_eq,
        h.fault_eq, h.outstanding_eq, h.next_eq, h.expected, h.finished, h.length_le⟩, hlog⟩
  | stalled begun released expected elapsed =>
    by_cases hready : s.expectedReady = true
    · simp only [hready, if_true]
      exact ⟨_, hcom expected fun _ => elapsed⟩
    · simp only [hready, false_eq_true, if_false]
      exact hquiet
  | complete begun last elapsed => cases hlive

theorem Following.runFrame (hlog : CommitLog plan epoch g.commits) (input : AutopilotFrameInput)
    (hbd : (s.runFrame input).2.acceptedMediaBeats + maxAutopilotHoldBeats ≤ u64Max) :
    ∃ phase', Following plan epoch (s.runFrame input).2
        ((s.runFrame input).1.foldl .emit (g.elapse s input)) phase' ∧
      CommitLog plan epoch ((s.runFrame input).1.foldl .emit (g.elapse s input)).commits := by
  have hheld := g.held_le_elapse s input
  unfold AutopilotScheduler.runFrame at hbd ⊢
  by_cases hlive : s.state.live = true
  · have hst : s.state = phase := by
      rcases h.inPhase with hsame | ⟨hpaused, -, -⟩
      · exact hsame
      · rw [hpaused] at hlive
        cases hlive
    simp only [hlive, Bool.not_true, Bool.false_eq_true, if_false] at hbd ⊢
    by_cases hsuppress : s.suppressFirstReleaseFrame = true
    · rw [if_pos hsuppress]
      refine ⟨phase, h.keep ?_ rfl rfl rfl rfl rfl rfl rfl h.outstanding_eq rfl (le_refl _), hlog⟩
      cases h.pacing with
      | starting first expected => exact .starting first expected
      | running begun released | stalled begun released =>
        exact absurd (hsuppress.symm.trans released) nofun
      | complete => rw [hst] at hlive; cases hlive
    rw [if_neg hsuppress]
    have hrel := eq_false_of_not_eq_true hsuppress
    by_cases hcrossed : (!input.mediaRunning ||
        decide (input.crossedBeats = 0)) = true
    · rw [if_pos hcrossed]
      refine ⟨phase, h.keep ?_ rfl rfl rfl rfl rfl rfl rfl h.outstanding_eq rfl (le_refl _), hlog⟩
      refine h.pacing.elapse id rfl rfl rfl hheld fun _ => ?_
      simp only [foldl_nil]
      rcases or_eq_true_iff.mp hcrossed with hfrozen | hnone
      · have hmedia : ¬input.mediaRunning = true := by simpa using hfrozen
        rw [AutopilotTrace.elapse, if_neg fun hboth => hmedia hboth.2]
      · have hzero : input.crossedBeats = 0 := of_decide_eq_true hnone
        simp [AutopilotTrace.elapse, hzero]
    · rw [if_neg hsuppress, if_neg hcrossed, releaseFrame_acceptedMediaBeats] at hbd
      rw [if_neg hcrossed]
      dsimp only at hbd
      obtain ⟨hmedia, hsome⟩ := or_eq_false_iff.mp (eq_false_of_not_eq_true hcrossed)
      have hmedia : input.mediaRunning = true := by simpa using hmedia
      have hpos : 0 < input.crossedBeats.toNat := by
        apply pos_of_ne_zero
        intro hzero
        exact of_decide_eq_false hsome (UInt32.toNat_inj.mp hzero)
      have hacc : saturatingAddU64 s.acceptedMediaBeats input.crossedBeats.toNat =
          s.acceptedMediaBeats + input.crossedBeats.toNat := by
        unfold saturatingAddU64 at hbd ⊢
        have hmax : maxAutopilotHoldBeats = 256 := rfl
        omega
      rw [hacc] at hbd ⊢
      have hnext : Following plan epoch
          { s with acceptedMediaBeats := s.acceptedMediaBeats + input.crossedBeats.toNat }
          (g.elapse s input) phase := by
        refine h.keep (h.pacing.elapse id rfl rfl rfl hheld ?_) rfl rfl rfl
          rfl rfl rfl rfl h.outstanding_eq rfl
          (le_add_right _ _)
        intro hrun
        rw [AutopilotTrace.elapse, if_pos ⟨hst.trans hrun, hmedia⟩]
        dsimp only
        omega
      refine hnext.releaseFrame hlog hst (hst ▸ hlive) hrel ?_ hbd
      exact Nat.lt_of_le_of_lt h.length_le (Nat.lt_add_of_pos_right hpos)
  · simp only [Bool.eq_false_of_not_eq_true hlive, Bool.not_false, if_true]
    refine ⟨phase, h.keep ?_ rfl rfl rfl rfl rfl rfl rfl h.outstanding_eq rfl (le_refl _), hlog⟩
    refine h.pacing.elapse id rfl rfl rfl hheld fun _ => ?_
    have hidle : ¬s.state = .running := by
      intro hrun
      rw [hrun] at hlive
      exact hlive rfl
    rw [foldl_nil, AutopilotTrace.elapse, if_neg fun hboth => hidle hboth.1]

end

theorem ended_enterFault (s : AutopilotScheduler) (g : AutopilotTrace) (target : AutopilotTarget) :
    Ended (s.enterFault (.preparation target)).2
      ((s.enterFault (.preparation target)).1.foldl .emit g) :=
  ⟨rfl, ⟨target, rfl⟩, rfl, rfl⟩

theorem Ended.advanceFrame (h : Ended s g) (input : AutopilotFrameInput) :
    s.advanceFrame input = ([], s) := by
  have hobserve : s.acceptReadiness input.readinessBeforeFrame = ([], s) := by
    cases input.readinessBeforeFrame with
    | pending => rfl
    | ready target | faulted target => simp [acceptReadiness, h.expected_eq]
  simp only [AutopilotScheduler.advanceFrame, hobserve, AutopilotScheduler.runFrame, h.state_eq]
  rfl

theorem OrderInvariant.advanceFrame (h : OrderInvariant plan epoch s g)
    (input : AutopilotFrameInput)
    (hbd : (s.advanceFrame input).2.acceptedMediaBeats + maxAutopilotHoldBeats ≤ u64Max) :
    OrderInvariant plan epoch (s.advanceFrame input).2 (g.next s (.advanceFrame input)) := by
  rw [g.next_advanceFrame]
  rcases h.alive with hend | ⟨phase, hfol⟩
  · rw [hend.advanceFrame input]
    refine ⟨?_, .inl ⟨hend.state_eq, hend.fault_eq, hend.expected_eq, ?_⟩⟩
    · rw [foldl_nil, AutopilotTrace.elapse, g.observe_commits]
      exact h.log
    · rw [foldl_nil, AutopilotTrace.elapse]
      cases input.readinessBeforeFrame <;>
        simp [AutopilotTrace.observe, hend.outstanding_eq]
  · rcases hfol.observe input.readinessBeforeFrame with ⟨target, hfault⟩ | ⟨t, hacc, hst, hnext⟩
    · rw [advanceFrame_of_enterFault hfault]
      refine ⟨?_, .inl (ended_enterFault s _ target)⟩
      simp only [enterFault, foldl_cons, foldl_nil,
        AutopilotTrace.emit, AutopilotTrace.elapse, g.observe_commits]
      exact h.log
    · rw [advanceFrame_of_quiet hacc] at hbd ⊢
      have hlog : CommitLog plan epoch (g.observe input.readinessBeforeFrame).commits := by
        rw [g.observe_commits]
        exact h.log
      have hsame : (g.observe input.readinessBeforeFrame).elapse s input =
          (g.observe input.readinessBeforeFrame).elapse t input := by
        simp only [AutopilotTrace.elapse, hst]
      rw [hsame]
      obtain ⟨phase', hrun, hlog'⟩ := hnext.runFrame hlog input hbd
      exact ⟨hlog', .inr ⟨phase', hrun⟩⟩

theorem OrderInvariant.pause (h : OrderInvariant plan epoch s g) :
    OrderInvariant plan epoch s.pause.2 g := by
  refine ⟨h.log, ?_⟩
  unfold AutopilotScheduler.pause
  by_cases hlive : s.state.live = true
  · rw [if_pos hlive]
    rcases h.alive with hend | ⟨phase, hfol⟩
    · rw [hend.state_eq] at hlive
      cases hlive
    · have hst : s.state = phase := by
        rcases hfol.inPhase with hsame | ⟨hpaused, -, -⟩
        · exact hsame
        · rw [hpaused] at hlive
          cases hlive
      refine .inr ⟨phase, { hfol with inPhase := ?_, pacing := ?_ }⟩
      · exact .inr ⟨rfl, congrArg some hst, hst ▸ hlive⟩
      · exact hfol.pacing.elapse id rfl rfl rfl (le_refl _) fun _ => rfl
  · rw [if_neg hlive]
    exact h.alive

theorem OrderInvariant.resume (h : OrderInvariant plan epoch s g) :
    OrderInvariant plan epoch s.resume.2 g := by
  refine ⟨h.log, ?_⟩
  unfold AutopilotScheduler.resume
  by_cases hpaused : s.state = .paused
  · rw [if_neg (not_not_intro hpaused)]
    rcases h.alive with hend | ⟨phase, hfol⟩
    · exact absurd (hend.state_eq.symm.trans hpaused) nofun
    · refine .inr ⟨phase, { hfol with inPhase := ?_, pacing := ?_ }⟩
      · rcases hfol.inPhase with hsame | ⟨-, hresume, -⟩
        · have hpacing := hfol.pacing
          rw [← hsame, hpaused] at hpacing
          cases hpacing
        · refine .inl ?_
          simp [hresume]
      · exact hfol.pacing.elapse id rfl rfl rfl (le_refl _) fun _ => rfl
  · rw [if_pos hpaused]
    exact h.alive

variable {scenes : Scenes}

theorem validateScenesFrom_ok_iff {steps : List AutopilotStep} :
    validateScenesFrom scenes i steps = .ok () ↔ ∀ step ∈ steps, step.sceneId ∈ scenes := by
  induction steps generalizing i with
  | nil => simp [validateScenesFrom]
  | cons step steps ih =>
    rw [validateScenesFrom, forall_mem_cons]
    by_cases hscene : step.sceneId ∈ scenes
    · rw [if_pos hscene, ih]
      exact (and_iff_right hscene).symm
    · rw [if_neg hscene]
      constructor
      · nofun
      · rintro ⟨hmem, -⟩
        exact absurd hmem hscene

variable {before : AutopilotScheduler}

theorem play_ok_iff :
    (∃ commands, (before.play plan scenes).1 = .ok commands) ↔
      plan.steps ≠ [] ∧ ∀ step ∈ plan.steps, step.sceneId ∈ scenes := by
  rw [← validateScenesFrom_ok_iff (i := 0)]
  unfold AutopilotScheduler.play AutopilotPlan.isEmpty AutopilotPlan.validateScenes
  by_cases hemp : plan.steps = []
  · simp [hemp]
  · have hsome : plan.steps.isEmpty = false := by simpa using hemp
    simp only [hsome, false_eq_true, if_false]
    cases hvalid : validateScenesFrom scenes 0 plan.steps with
    | error issue => simp
    | ok _ => simp [hemp]

theorem orderInvariant_play {commands : AutopilotCommands}
    (hplay : (before.play plan scenes).1 = .ok commands) :
    OrderInvariant plan (before.play plan scenes).2.epoch (before.play plan scenes).2
      ((playCommands before plan scenes).foldl .emit .start) := by
  obtain ⟨hne, hscenes⟩ := play_ok_iff.mp ⟨commands, hplay⟩
  have hemp : plan.isEmpty = false := by simpa [AutopilotPlan.isEmpty] using hne
  have hvalid : plan.validateScenes scenes = .ok () := validateScenesFrom_ok_iff.mpr hscenes
  have hlen : 0 < plan.len := length_pos_iff.mpr hne
  unfold playCommands AutopilotScheduler.play
  simp only [hemp, hvalid, false_eq_true, if_false]
  obtain ⟨target, hprepare, hnames, hnext⟩ := prepareStep_spec
    (s := { before.advanceEpoch.clearSequenceState with
      plan := some plan
      state := .starting
      suppressFirstReleaseFrame := true })
    rfl hlen (i := 0) rfl (by decide)
  rw [zero_mod] at hprepare
  simp only [hprepare]
  refine ⟨⟨?_, fun _ => zero_le _, ?_⟩, .inr ⟨.starting,
    ⟨.inl rfl, .starting rfl (some_ne_none target), rfl, rfl, rfl,
      rfl, fun _ => hnext, ?_, ?_, zero_le _⟩⟩⟩
  · intro i commit hcom
    cases hcom
  · intro i commit hcom
    cases hcom
  · intro expected hexp
    cases hexp
    exact ⟨hnames, fun _ => hlen⟩
  · intro hnone
    exact absurd hnone (some_ne_none target)

theorem accepted_of_advanceFrame {input : AutopilotFrameInput}
    (h : (s.advanceFrame input).2.acceptedMediaBeats + maxAutopilotHoldBeats ≤ u64Max) :
    s.acceptedMediaBeats + maxAutopilotHoldBeats ≤ u64Max := by
  rcases acceptReadiness_effect s input.readinessBeforeFrame with
    ⟨t, hacc, hsilent⟩ | ⟨target, -, hfault⟩
  · rw [advanceFrame_of_quiet hacc] at h
    have hsame : t.acceptedMediaBeats = s.acceptedMediaBeats := by
      have hkeep := s.acceptReadiness_acceptedMediaBeats input.readinessBeforeFrame
      rwa [hacc] at hkeep
    have hmax : maxAutopilotHoldBeats = 256 := rfl
    rcases t.runFrame_acceptedMediaBeats input with hrun | hrun
    · rwa [hrun, hsame] at h
    · rw [hrun, hsame] at h
      unfold saturatingAddU64 at h
      omega
  · rw [advanceFrame_of_enterFault hfault] at h
    exact h

theorem orderInvariant_of_reachable (hreach : (autopilotRuns before plan scenes).Reachable (s, g))
    (hbd : s.acceptedMediaBeats + maxAutopilotHoldBeats ≤ u64Max) :
    OrderInvariant plan (before.play plan scenes).2.epoch s g := by
  revert hbd
  refine Machine.Reachable.invariant
    (P := fun p => p.1.acceptedMediaBeats + maxAutopilotHoldBeats ≤ u64Max →
      OrderInvariant plan (before.play plan scenes).2.epoch p.1 p.2)
    ?_ ?_ hreach
  · rintro ⟨s, g⟩ ⟨⟨⟨commands, hplay⟩, hs⟩, hg⟩ -
    rw [hs, hg]
    exact orderInvariant_play hplay
  · rintro ⟨s, g⟩ call ⟨t, g'⟩ hinv hstep hbd
    obtain ⟨hstep, hnext⟩ := Machine.observe_step_eq_some.mp hstep
    rw [hnext]
    cases call with
    | advanceFrame input =>
      cases hstep
      exact (hinv (accepted_of_advanceFrame hbd)).advanceFrame input hbd
    | pause =>
      cases hstep
      rw [pause_acceptedMediaBeats] at hbd
      exact (hinv hbd).pause
    | resume =>
      cases hstep
      rw [resume_acceptedMediaBeats] at hbd
      exact (hinv hbd).resume

theorem OrderInvariant.outstanding_length_le
    (h : OrderInvariant plan epoch s g) : g.outstanding.length ≤ 1 := by
  rcases h.alive with hend | ⟨phase, hfol⟩
  · rw [hend.outstanding_eq]
    exact zero_le 1
  · rw [hfol.outstanding_eq]
    exact length_toList_le

/-- A frame commits at most once, and then the one outstanding target after a
`Ready` snapshot that names it. -/
theorem OrderInvariant.commits_outstanding
    (h : OrderInvariant plan epoch s g) (input : AutopilotFrameInput) :
    (s.advanceFrame input).1.countP AutopilotCommand.isCommit ≤ 1 ∧
      ∀ target, .commit target ∈ (s.advanceFrame input).1 →
        (g.observe input.readinessBeforeFrame).outstanding = [(target, true)] := by
  rcases h.alive with hend | ⟨phase, hfol⟩
  · rw [hend.advanceFrame input]
    exact ⟨zero_le 1, fun target htgt => absurd htgt (by simp)⟩
  rcases hfol.observe input.readinessBeforeFrame with ⟨target, hfault⟩ | ⟨t, hacc, -, hnext⟩
  · rw [advanceFrame_of_enterFault hfault]
    refine ⟨zero_le 1, ?_⟩
    intro other hother
    rw [enterFault, mem_singleton] at hother
    cases hother
  rw [advanceFrame_of_quiet hacc]
  have heff := runFrame_effect t input
  generalize t.runFrame input = result at heff
  cases heff with
  | silent effect => exact ⟨zero_le 1, fun target htgt => absurd htgt (by simp)⟩
  | cancel effect =>
    refine ⟨zero_le 1, ?_⟩
    intro other hother
    rw [mem_singleton] at hother
    cases hother
  | @commit t' target lookahead effect =>
    refine ⟨?_, ?_⟩
    · cases lookahead <;> exact le_refl 1
    · intro other hother
      have hsame : other = target := by
        cases lookahead <;> simpa using hother
      rw [hsame, hnext.outstanding_eq, effect.expected_eq, effect.ready]
      rfl

/-- An autopilot epoch commits the steps of its plan in authored order with
consecutive sequence numbers, holds every step for its beats, and completes
only after the last hold of a plan that runs once. -/
theorem autopilot_in_order {before : AutopilotScheduler} {scenes : Scenes}
    (hreach : (autopilotRuns before plan scenes).Reachable (s, g))
    (hbound : s.acceptedMediaBeats + maxAutopilotHoldBeats ≤ u64Max) :
    CommitLog plan (before.play plan scenes).2.epoch g.commits ∧
      g.outstanding.length ≤ 1 ∧
      (∀ input,
        (s.advanceFrame input).1.countP AutopilotCommand.isCommit ≤ 1 ∧
          ∀ target, .commit target ∈ (s.advanceFrame input).1 →
            (g.observe input.readinessBeforeFrame).outstanding = [(target, true)]) ∧
      (s.state = .complete → plan.repeats = .once ∧
        g.commits.length = plan.len ∧ holdAt plan (plan.len - 1) ≤ g.held) ∧
      s.fault ≠ some .invariant := by
  have hinv := orderInvariant_of_reachable hreach hbound
  refine ⟨hinv.log, hinv.outstanding_length_le, hinv.commits_outstanding, ?_, ?_⟩
  · intro hcomplete
    rcases hinv.alive with hended | ⟨phase, hfollowing⟩
    · exact absurd (hended.state_eq.symm.trans hcomplete) nofun
    · have hphase : phase = .complete := by
        rcases hfollowing.inPhase with hsame | ⟨hpaused, -, -⟩
        · exact hsame.symm.trans hcomplete
        · exact absurd (hpaused.symm.trans hcomplete) nofun
      have hpacing := hfollowing.pacing
      rw [hphase] at hpacing
      cases hpacing with
      | complete begun last elapsed =>
        obtain ⟨honce, hlength⟩ := hfollowing.finished last
        rw [hlength] at elapsed
        exact ⟨honce, hlength, elapsed⟩
  · intro hinvariant
    rcases hinv.alive with hended | ⟨phase, hfollowing⟩
    · obtain ⟨target, hfault⟩ := hended.fault_eq
      exact absurd (hfault.symm.trans hinvariant) nofun
    · exact absurd (hfollowing.fault_eq.symm.trans hinvariant) nofun

end

theorem autopilot_in_order_pairPlan :
    ∃ s g, (autopilotRuns .default pairPlan pairScenes).Reachable (s, g) ∧
      g.commits.length = 1 ∧ CommitLog pairPlan 1 g.commits := by
  have hstart : (autopilotRuns .default pairPlan pairScenes).start
      ((AutopilotScheduler.default.play pairPlan pairScenes).2,
        (playCommands .default pairPlan pairScenes).foldl .emit .start) :=
    ⟨⟨⟨_, rfl⟩, rfl⟩, rfl⟩
  have hrun : (autopilotRuns .default pairPlan pairScenes).exec
      ((AutopilotScheduler.default.play pairPlan pairScenes).2,
        (playCommands .default pairPlan pairScenes).foldl .emit .start)
      [.advanceFrame ⟨1, true, .ready ⟨1, 0, 0, ⟨1, by decide⟩⟩⟩,
        .advanceFrame ⟨1, true, .pending⟩] = some (_, _) := rfl
  have hreach := Machine.reachable_of_exec hstart hrun
  exact ⟨_, _, hreach, rfl, (autopilot_in_order hreach (by decide)).1⟩

end CollideOScope.Autopilot
