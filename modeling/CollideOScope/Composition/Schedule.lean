import CollideOScope.Composition.Taps
import CollideOScope.Support.Reorder

/-!
# Block schedules

The executor renders the scopes of a plan in its execution order, and admits the
outputs of the root, and the members of each group, back to front.  An output
that is admitted right after it was rendered is read from the working surface.
One that had to wait is read from a tap that retained it; without such a tap the
plan is refused.
-/

namespace CollideOScope.Composition

open Checks

variable {Body : Type}

inductive TapBacking
  | transparent | programHistory | gestureCanvas | programTap | previous
  | currentPreLocal (layerId : StableLayerId)
  | current
  deriving DecidableEq

structure PreparedTap where
  planned : PlannedImageTap
  backing : TapBacking

/-- The backing of a tap that is neither transparent nor a singleton. -/
def surfaceBacking (resolved : PlannedImageSource) : EdgeTiming → TapBacking
  | .previousFrame => .previous
  | .currentFrame =>
    match resolved with
    | .selectedLayer layerId .preLocalEffects => .currentPreLocal layerId
    | _ => .current

def tapBacking (planned : PlannedImageTap) : TapBacking :=
  match planned.resolved with
  | .transparent => .transparent
  | .programHistory => .programHistory
  | .gestureCanvas => .gestureCanvas
  | .programTap => .programTap
  | resolved => surfaceBacking resolved planned.origin.timing

def prepareTapSurfaces (planned : List PlannedImageTap) : List PreparedTap :=
  planned.map fun planned => ⟨planned, tapBacking planned⟩

def tapScopeProducer (tap : PreparedTap) : Option VisualScopeId :=
  if tap.planned.origin.timing ≠ .currentFrame then none
  else
    match tap.planned.resolved with
    | .scope scope => some scope
    | .oneBelow scope => some scope
    | .selectedLayer layerId .postLocalEffects => some (.layer layerId)
    | _ => none

def retainedScope (tap : PreparedTap) : Option VisualScopeId :=
  if tap.backing = .current then tapScopeProducer tap else none

/-- One turn of the loop over the taps: the first tap of a scope stays. -/
def retainTap (retained : VisualScopeId → Option ℕ)
    (entry : PreparedTap × ℕ) : VisualScopeId → Option ℕ :=
  match retainedScope entry.1 with
  | none => retained
  | some scope =>
    if (retained scope).isSome then retained
    else Function.update retained scope (some entry.2)

def retainedScopeSources (taps : List PreparedTap) : VisualScopeId → Option ℕ :=
  taps.zipIdx.foldl retainTap fun _ => none

inductive RootTask
  | layer (layerId : StableLayerId)
  | group (groupId : GroupId)
  deriving DecidableEq

def RootTask.outputScope : RootTask → VisualScopeId
  | layer layerId => .layer layerId
  | group groupId => .group groupId

inductive ScheduledSource
  | ping
  | retainedTap (index : ℕ)

inductive ScheduleError
  | rootBlocksIncomplete
  | notRetained (scope : VisualScopeId)
  | rootNotDrained
  | memberLost (groupId : GroupId)
  | membersNotDrained (groupId : GroupId)

/-- What a scope that had to wait is read from. -/
def lateSource (retained : VisualScopeId → Option ℕ) (scope : VisualScopeId) :
    Except ScheduleError ScheduledSource :=
  match retained scope with
  | none => .error (.notRetained scope)
  | some index => .ok (.retainedTap index)

def scheduledSource (retained : VisualScopeId → Option ℕ)
    (scope current : VisualScopeId) (first : Bool) :
    Except ScheduleError ScheduledSource :=
  if scope = current ∧ first then .ok .ping else lateSource retained scope

abbrev RootSchedule := List (Reorder.Entry RootTask ScheduledSource)

abbrev MemberSchedule := List (Reorder.Entry StableLayerId ScheduledSource)

structure BlockSchedules where
  root : RootSchedule
  members : List (GroupId × MemberSchedule)

/-- The parts of a plan that the schedules are built from. -/
structure SchedulePlan where
  root : List (RootItem StableLayerId)
  groups : List (GroupId × List StableLayerId)
  executionOrder : List VisualScopeId

def RootItem.task : RootItem StableLayerId → RootTask
  | layer layerId _ => .layer layerId
  | group groupId => .group groupId

def SchedulePlan.groupedLayers (plan : SchedulePlan) : List StableLayerId :=
  plan.groups.flatMap Prod.snd

def SchedulePlan.rootTask (plan : SchedulePlan) : VisualScopeId → Option RootTask
  | .layer layerId => if layerId ∈ plan.groupedLayers then none else some (.layer layerId)
  | .group groupId => some (.group groupId)
  | .master => none
  | .program => none

def memberTask (desired : List StableLayerId) : VisualScopeId → Option StableLayerId
  | .layer layerId => if layerId ∈ desired then some layerId else none
  | _ => none

def buildRootSchedule (plan : SchedulePlan) (retained : VisualScopeId → Option ℕ) :
    Except ScheduleError RootSchedule := do
  let desired := plan.root.map RootItem.task
  let execution := plan.executionOrder.filterMap plan.rootTask
  refuse (execution.length ≠ desired.length ∨
    execution.toFinset.card ≠ desired.length) .rootBlocksIncomplete
  let drained ← Reorder.drainAll (fun item task first =>
    scheduledSource retained item.outputScope task.outputScope first)
    [] execution desired
  refuse (drained.1 ≠ []) .rootNotDrained
  return drained.2

def buildMemberSchedule (plan : SchedulePlan) (retained : VisualScopeId → Option ℕ)
    (group : GroupId × List StableLayerId) :
    Except ScheduleError (GroupId × MemberSchedule) := do
  let desired := group.2
  let execution := plan.executionOrder.filterMap (memberTask desired)
  refuse (execution.length ≠ desired.length) (.memberLost group.1)
  let drained ← Reorder.drainAll (fun item task first =>
    scheduledSource retained (.layer item) (.layer task) first)
    [] execution desired
  refuse (drained.1 ≠ []) (.membersNotDrained group.1)
  return (group.1, drained.2)

def buildBlockSchedules (plan : SchedulePlan) (retained : VisualScopeId → Option ℕ) :
    Except ScheduleError BlockSchedules := do
  let root ← buildRootSchedule plan retained
  let members ← plan.groups.mapM (buildMemberSchedule plan retained)
  return ⟨root, members⟩

end CollideOScope.Composition
