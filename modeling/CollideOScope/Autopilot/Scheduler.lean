import CollideOScope.Support.Machine
import CollideOScope.Support.Words
import Mathlib.Data.UInt

/-!
# The Autopilot scheduler

The scheduler sequences the scenes of an authored plan by accepted media beats.
It answers every call with commands for the host: cancel an epoch, prepare one
lookahead scene, or commit the prepared one.

Each call is a function from the scheduler to its commands and the next
scheduler.
-/

namespace CollideOScope.Autopilot

abbrev SceneId := {raw : UInt16 // raw ≠ 0}

def maxAutopilotHoldBeats : ℕ := 256

/-- Between one and `MAX_AUTOPILOT_HOLD_BEATS` beats. -/
abbrev AutopilotHoldBeats := {beats : ℕ // 0 < beats ∧ beats ≤ maxAutopilotHoldBeats}

inductive AutopilotRepeat where
  | once | loop
  deriving DecidableEq

structure AutopilotStep where
  sceneId : SceneId
  holdBeats : AutopilotHoldBeats

structure AutopilotPlan where
  repeats : AutopilotRepeat
  steps : List AutopilotStep

def AutopilotPlan.isEmpty (plan : AutopilotPlan) : Bool := plan.steps.isEmpty

def AutopilotPlan.len (plan : AutopilotPlan) : ℕ := plan.steps.length

structure AutopilotSceneReferenceIssue where
  stepIndex : ℕ
  sceneId : SceneId

/-- The identities of the authored scenes; the scheduler reads nothing else of
them. -/
abbrev Scenes := List SceneId

/-- The loop of `validate_scenes` from a given step. -/
def validateScenesFrom (scenes : Scenes) :
    ℕ → List AutopilotStep → Except AutopilotSceneReferenceIssue Unit
  | _, [] => .ok ()
  | stepIndex, step :: steps =>
    if step.sceneId ∈ scenes then validateScenesFrom scenes (stepIndex + 1) steps
    else .error ⟨stepIndex, step.sceneId⟩

def AutopilotPlan.validateScenes (plan : AutopilotPlan) (scenes : Scenes) :
    Except AutopilotSceneReferenceIssue Unit :=
  validateScenesFrom scenes 0 plan.steps

inductive AutopilotState where
  | stopped | starting | running | paused | stalled | faulted | complete
  deriving DecidableEq

/-- The states in which a frame may advance the sequence. -/
def AutopilotState.live : AutopilotState → Bool
  | .starting => true
  | .running => true
  | .stalled => true
  | _ => false

/-- The identity of one preparation or commit request. -/
structure AutopilotTarget where
  (epoch sequence : UInt64)
  stepIndex : ℕ
  sceneId : SceneId
  deriving DecidableEq

inductive AutopilotCommand where
  | cancelOwned (epoch : UInt64)
  | prepare (target : AutopilotTarget)
  | commit (target : AutopilotTarget)
  deriving DecidableEq

def AutopilotCommand.isCommit : AutopilotCommand → Bool
  | .commit _ => true
  | _ => false

abbrev AutopilotCommands := List AutopilotCommand

/-- Preparation truth captured before a frame. -/
inductive AutopilotReadinessBeforeFrame where
  | pending
  | ready (target : AutopilotTarget)
  | faulted (target : AutopilotTarget)

structure AutopilotFrameInput where
  crossedBeats : UInt32
  mediaRunning : Bool
  readinessBeforeFrame : AutopilotReadinessBeforeFrame

inductive AutopilotPlayError where
  | emptyPlan
  | missingScene (issue : AutopilotSceneReferenceIssue)

structure AutopilotPlayFailure where
  error : AutopilotPlayError
  commands : AutopilotCommands

inductive AutopilotFault where
  | emptyPlan
  | missingScene (issue : AutopilotSceneReferenceIssue)
  | preparation (target : AutopilotTarget)
  | commit (target : AutopilotTarget)
  | reference (sceneId : SceneId)
  | invariant

structure AutopilotScheduler where
  state : AutopilotState
  resumeState : Option AutopilotState
  (epoch nextSequence : UInt64)
  plan : Option AutopilotPlan
  cursor : ℕ
  activeCursor : Option ℕ
  lastCommit : Option (AutopilotTarget × Option ℕ)
  acceptedMediaBeats : ℕ
  dueMediaBeat : Option ℕ
  expected : Option AutopilotTarget
  (expectedReady suppressFirstReleaseFrame : Bool)
  fault : Option AutopilotFault

namespace AutopilotScheduler

def default : AutopilotScheduler where
  state := .stopped
  resumeState := none
  epoch := 0
  nextSequence := 0
  plan := none
  cursor := 0
  activeCursor := none
  lastCommit := none
  acceptedMediaBeats := 0
  dueMediaBeat := none
  expected := none
  expectedReady := false
  suppressFirstReleaseFrame := false
  fault := none

/-- `advance_epoch` without the returned old epoch. -/
def advanceEpoch (s : AutopilotScheduler) : AutopilotScheduler :=
  { s with epoch := if s.epoch + 1 = 0 then 1 else s.epoch + 1 }

def clearSequenceState (s : AutopilotScheduler) : AutopilotScheduler :=
  { s with
    resumeState := none
    nextSequence := 0
    plan := none
    cursor := 0
    activeCursor := none
    lastCommit := none
    acceptedMediaBeats := 0
    dueMediaBeat := none
    expected := none
    expectedReady := false
    suppressFirstReleaseFrame := false
    fault := none }

/-- `prepare_step`: the single lookahead command. -/
def prepareStep (s : AutopilotScheduler) (stepIndex : ℕ) : AutopilotCommands × AutopilotScheduler :=
  match s.plan.bind fun plan => plan.steps[stepIndex]? with
  | none => ([], s)
  | some step =>
    let target : AutopilotTarget := ⟨s.epoch, s.nextSequence, stepIndex, step.sceneId⟩
    ([.prepare target],
      { s with
        nextSequence := s.nextSequence + 1
        expected := some target
        expectedReady := false })

def enterFault (s : AutopilotScheduler) (fault : AutopilotFault) :
    AutopilotCommands × AutopilotScheduler :=
  ([.cancelOwned s.epoch],
    { s.advanceEpoch with
      state := .faulted
      resumeState := none
      fault := some fault
      dueMediaBeat := none
      expected := none
      expectedReady := false
      lastCommit := none })

def play (s : AutopilotScheduler) (plan : AutopilotPlan) (scenes : Scenes) :
    Except AutopilotPlayFailure AutopilotCommands × AutopilotScheduler :=
  if plan.isEmpty then (.error ⟨.emptyPlan, []⟩, s)
  else
    let cancel : AutopilotCommand := .cancelOwned s.epoch
    let cleared := s.advanceEpoch.clearSequenceState
    match plan.validateScenes scenes with
    | .error issue =>
      (.error ⟨.missingScene issue, [cancel]⟩,
        { cleared with
          state := .faulted
          fault := some (.missingScene issue) })
    | .ok () =>
      let armed := { cleared with
        plan := some plan
        state := .starting
        suppressFirstReleaseFrame := true }
      (.ok (cancel :: (armed.prepareStep 0).1), (armed.prepareStep 0).2)

def reset (s : AutopilotScheduler) : AutopilotCommands × AutopilotScheduler :=
  ([.cancelOwned s.epoch], { s.advanceEpoch.clearSequenceState with state := .stopped })

def pause (s : AutopilotScheduler) : Bool × AutopilotScheduler :=
  if s.state.live then (true, { s with resumeState := some s.state, state := .paused })
  else (false, s)

def resume (s : AutopilotScheduler) : Bool × AutopilotScheduler :=
  if s.state ≠ .paused then (false, s)
  else
    (true, { s with
      state := s.resumeState.getD .running
      resumeState := none })

def nextIndex (plan : AutopilotPlan) (cursor : ℕ) : Option ℕ :=
  if cursor + 1 < plan.len then some (cursor + 1)
  else if plan.repeats = .loop then some 0
  else none

def committed (s : AutopilotScheduler) (target : AutopilotTarget)
    (step : AutopilotStep) : AutopilotScheduler :=
  { s with
    expected := none
    cursor := target.stepIndex
    activeCursor := some target.stepIndex
    lastCommit := some (target, s.activeCursor)
    expectedReady := false
    state := .running
    dueMediaBeat := some (saturatingAddU64 s.acceptedMediaBeats step.holdBeats) }

def prepareNext (s : AutopilotScheduler) (plan : AutopilotPlan)
    (cursor : ℕ) : AutopilotCommands × AutopilotScheduler :=
  match nextIndex plan cursor with
  | none => ([], s)
  | some index => s.prepareStep index

def commitExpected (s : AutopilotScheduler) : AutopilotCommands × AutopilotScheduler :=
  match s.expected with
  | none => ([], s)
  | some target =>
    match s.plan with
    | none => ([], { s with expected := none })
    | some plan =>
      match plan.steps[target.stepIndex]? with
      | none => ([], { s with expected := none })
      | some step =>
        let next := (s.committed target step).prepareNext plan target.stepIndex
        (.commit target :: next.1, next.2)

variable {s : AutopilotScheduler}

theorem commitExpected_of_step {target : AutopilotTarget} {plan : AutopilotPlan}
    {step : AutopilotStep} (hexp : s.expected = some target) (hplan : s.plan = some plan)
    (hstep : plan.steps[target.stepIndex]? = some step) :
    s.commitExpected =
      (.commit target ::
          ((s.committed target step).prepareNext plan target.stepIndex).1,
        ((s.committed target step).prepareNext plan target.stepIndex).2) := by
  simp only [commitExpected, hexp, hplan, hstep]

def acceptReadiness (s : AutopilotScheduler) (readiness : AutopilotReadinessBeforeFrame) :
    AutopilotCommands × AutopilotScheduler :=
  match readiness with
  | .pending => ([], s)
  | .ready target =>
    if s.expected = some target then ([], { s with expectedReady := true })
    else ([], s)
  | .faulted target =>
    if s.expected = some target then s.enterFault (.preparation target)
    else ([], s)

/-- The part of `advance_frame` after an accepted beat crossing. -/
def releaseFrame (s : AutopilotScheduler) : AutopilotCommands × AutopilotScheduler :=
  match s.state with
  | .starting => if s.expectedReady then s.commitExpected else ([], s)
  | .running =>
    match s.dueMediaBeat with
    | none => s.enterFault .invariant
    | some due =>
      if s.acceptedMediaBeats < due then ([], s)
      else if s.expected = none then ([], { s with state := .complete, dueMediaBeat := none })
      else if s.expectedReady then s.commitExpected
      else ([], { s with state := .stalled })
  | .stalled => if s.expectedReady then s.commitExpected else ([], s)
  | _ => ([], s)

/-- The part of `advance_frame` after the readiness snapshot. -/
def runFrame (s : AutopilotScheduler) (input : AutopilotFrameInput) :
    AutopilotCommands × AutopilotScheduler :=
  if !s.state.live then ([], s)
  else if s.suppressFirstReleaseFrame then ([], { s with suppressFirstReleaseFrame := false })
  else if !input.mediaRunning || input.crossedBeats = 0 then ([], s)
  else
    releaseFrame { s with
      acceptedMediaBeats := saturatingAddU64 s.acceptedMediaBeats input.crossedBeats.toNat }

section

variable (s : AutopilotScheduler)

@[simp] theorem prepareStep_acceptedMediaBeats (index : ℕ) :
    (s.prepareStep index).2.acceptedMediaBeats = s.acceptedMediaBeats := by
  unfold prepareStep
  split <;> rfl

@[simp] theorem commitExpected_acceptedMediaBeats :
    s.commitExpected.2.acceptedMediaBeats = s.acceptedMediaBeats := by
  unfold commitExpected
  split
  · rfl
  split
  · rfl
  split
  · rfl
  unfold prepareNext
  split
  · rfl
  · exact prepareStep_acceptedMediaBeats _ _

@[simp] theorem releaseFrame_acceptedMediaBeats :
    s.releaseFrame.2.acceptedMediaBeats = s.acceptedMediaBeats := by
  have hcom :
      (if s.expectedReady then s.commitExpected
        else ([], s)).2.acceptedMediaBeats = s.acceptedMediaBeats := by
    split
    · exact s.commitExpected_acceptedMediaBeats
    · rfl
  unfold releaseFrame
  split
  · exact hcom
  · split
    · rfl
    split
    · rfl
    split
    · rfl
    split
    · exact s.commitExpected_acceptedMediaBeats
    · rfl
  · exact hcom
  · rfl

@[simp] theorem acceptReadiness_acceptedMediaBeats
    (readiness : AutopilotReadinessBeforeFrame) :
    (s.acceptReadiness readiness).2.acceptedMediaBeats = s.acceptedMediaBeats := by
  unfold acceptReadiness
  split
  · rfl
  · split <;> rfl
  · split <;> rfl

@[simp] theorem pause_acceptedMediaBeats : s.pause.2.acceptedMediaBeats = s.acceptedMediaBeats := by
  unfold pause
  split <;> rfl

@[simp] theorem resume_acceptedMediaBeats :
    s.resume.2.acceptedMediaBeats = s.acceptedMediaBeats := by
  unfold resume
  split <;> rfl

theorem runFrame_acceptedMediaBeats (input : AutopilotFrameInput) :
    (s.runFrame input).2.acceptedMediaBeats = s.acceptedMediaBeats ∨
      (s.runFrame input).2.acceptedMediaBeats =
        saturatingAddU64 s.acceptedMediaBeats input.crossedBeats.toNat := by
  unfold runFrame
  split
  · exact .inl rfl
  split
  · exact .inl rfl
  split
  · exact .inl rfl
  · exact .inr (releaseFrame_acceptedMediaBeats _)

end

def advanceFrame (s : AutopilotScheduler) (input : AutopilotFrameInput) :
    AutopilotCommands × AutopilotScheduler :=
  match s.acceptReadiness input.readinessBeforeFrame with
  | ([], s) => s.runFrame input
  | faulted => faulted

variable {input : AutopilotFrameInput}

theorem advanceFrame_of_quiet {t : AutopilotScheduler}
    (h : s.acceptReadiness input.readinessBeforeFrame = ([], t)) :
    s.advanceFrame input = t.runFrame input := by
  rw [advanceFrame, h]

theorem advanceFrame_of_enterFault {fault : AutopilotFault}
    (h : s.acceptReadiness input.readinessBeforeFrame = s.enterFault fault) :
    s.advanceFrame input = s.enterFault fault := by
  rw [advanceFrame, h]
  rfl

/-- Undo the cursor of a commit the host rejected. -/
def rollback (s : AutopilotScheduler) (fault : AutopilotFault) : AutopilotScheduler :=
  match fault, s.lastCommit with
  | .commit target, some (lastTarget, priorCursor) =>
    if lastTarget = target then
      { s with
        activeCursor := priorCursor
        cursor := priorCursor.getD 0 }
    else s
  | _, _ => s

/-- `fault`. -/
def reportFault (s : AutopilotScheduler) (fault : AutopilotFault) :
    AutopilotCommands × AutopilotScheduler :=
  (s.rollback fault).enterFault fault

def activeStepIndex (s : AutopilotScheduler) : Option ℕ := s.activeCursor

end AutopilotScheduler

/-- Two scenes, held for two and four beats, visited once. -/
def pairPlan : AutopilotPlan :=
  ⟨.once, [⟨⟨1, by decide⟩, ⟨2, by decide⟩⟩, ⟨⟨2, by decide⟩, ⟨4, by decide⟩⟩]⟩

def pairScenes : Scenes := [⟨1, by decide⟩, ⟨2, by decide⟩]

end CollideOScope.Autopilot
