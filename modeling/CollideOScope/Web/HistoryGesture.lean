import Mathlib.Data.List.InsertIdx
import CollideOScope.Web.Queue

/-!
# Browser history gestures

A browser groups edits of one destination into one undo entry: Begin, values of
one key, End or Cancel.  The owner of the open gesture lives under one lock, the
boundaries live in the bounded action queue under another.  Each function below
is one critical section of the ownership lock.
-/

namespace CollideOScope.Web

open Actions

inductive HistoryBoundary
  | begin (gestureId : UInt64)
  | «end» (gestureId : UInt64)
  | cancel (gestureId : UInt64)

def WebAction.boundary : WebAction → Option HistoryBoundary
  | beginHistoryGesture gestureId => some (.begin gestureId)
  | endHistoryGesture gestureId => some (.end gestureId)
  | cancelHistoryGesture gestureId => some (.cancel gestureId)
  | _ => none

/-- A queued action with the client that sent it, which the queue never
reads. -/
structure Sent where
  client : UInt64
  action : Queued

namespace Sent

instance : QueuedWebAction Sent := ⟨fun sent => sent.action.payload⟩

@[simp] theorem webAction_sent (sent : Sent) : webAction sent = sent.action.payload := rfl

def boundary (sent : Sent) : Option HistoryBoundary := sent.action.payload.boundary

end Sent

structure BrowserHistoryGesture where
  (clientId gestureId : UInt64)
  coalesceKey : Option String
  dirty : Bool

inductive ActionIngressDisposition
  | queued | queuedAfterCoalescing | coalesced | refused

structure ActionIngressAck where
  sequence : ActionSequence
  disposition : ActionIngressDisposition

/-- The owner of the open gesture, the queue, the actions drained so far and
the ended ones. -/
structure GestureState where
  active : Option BrowserHistoryGesture
  (queue drained : List Sent)
  terminated : List (Sent × ActionDisposition)

/-- What a critical section returns: the outcome of an admission, or the
refusal of the ownership check. -/
abbrev Admission := Except ActionIngressAck (EnqueueOutcome × ActionIngressAck)

namespace GestureState

def empty : GestureState := ⟨none, [], [], []⟩

def ingressDisposition : EnqueueOutcome → ActionIngressDisposition
  | .added => .queued
  | .coalesced => .queuedAfterCoalescing
  | .dropped => .refused

def terminalize (state : GestureState) (sent : Sent) : Admission × GestureState :=
  (.error ⟨sent.action.identity.sequence, .refused⟩,
    { state with terminated := state.terminated ++ [(sent, .refused)] })

def enqueueGuardedActionWithAck (state : GestureState) (sent : Sent) :
    (EnqueueOutcome × ActionIngressAck) × GestureState :=
  let (report, queue) := ActionQueue.enqueueBoundedDetailed state.queue sent
  ((report.outcome,
      ⟨sent.action.identity.sequence, ingressDisposition report.outcome⟩),
    { state with
      queue
      terminated := state.terminated ++ report.terminal.toList })

def enqueueBrowserHistoryBegin (state : GestureState) (clientId : UInt64)
    (gestureId : UInt64) (sent : Sent) : Admission × GestureState :=
  if state.active.isSome then state.terminalize sent
  else
    let (admitted, next) := state.enqueueGuardedActionWithAck sent
    if admitted.1 ≠ .dropped then
      (.ok admitted, { next with active := some ⟨clientId, gestureId, none, false⟩ })
    else (.ok admitted, next)

def mayFinish (state : GestureState) (clientId : UInt64) (gestureId : UInt64)
    (cancel : Bool) : Bool :=
  state.active.any fun active =>
    active.clientId = clientId && active.gestureId = gestureId && (!cancel || !active.dirty)

def enqueueBrowserHistoryFinish (state : GestureState) (clientId : UInt64)
    (gestureId : UInt64) (cancel : Bool) (sent : Sent) :
    Admission × GestureState :=
  if !state.mayFinish clientId gestureId cancel then state.terminalize sent
  else
    let (admitted, next) := state.enqueueGuardedActionWithAck sent
    if admitted.1 ≠ .dropped then (.ok admitted, { next with active := none })
    else (.ok admitted, next)

/-- The key by which an action that enters manual history is owned. -/
def candidateKey (action : WebAction) : Option String :=
  if action.isPerformanceOnlyForHistory then none else action.coalesceKey

def mayAct (owner : BrowserHistoryGesture) (clientId : UInt64) (action : WebAction) : Bool :=
  owner.clientId = clientId && (candidateKey action).any fun key =>
    owner.coalesceKey.all fun owned => owned = key

def publish (owner : BrowserHistoryGesture) (key : String) : BrowserHistoryGesture :=
  { owner with coalesceKey := some (owner.coalesceKey.getD key), dirty := true }

/-- The action enters manual history while a gesture is open. -/
def isOwned (state : GestureState) (action : WebAction) : Bool :=
  state.active.isSome && !action.isPerformanceOnlyForHistory

def enqueueBrowserActionDuringGesture (state : GestureState)
    (clientId : UInt64) (sent : Sent) : Admission × GestureState :=
  let action := sent.action.payload
  if state.isOwned action &&
      !state.active.any (mayAct · clientId action) then
    state.terminalize sent
  else
    let publishKey := if state.isOwned action then candidateKey action else none
    let (admitted, next) := state.enqueueGuardedActionWithAck sent
    if admitted.1 ≠ .dropped then
      (.ok admitted,
        { next with
          active := publishKey.elim next.active fun key => next.active.map (publish · key) })
    else (.ok admitted, next)

def ownedBy (state : GestureState) (clientId : UInt64) : Option UInt64 :=
  (state.active.filter fun active => active.clientId = clientId).map BrowserHistoryGesture.gestureId

def disconnectBrowserHistoryGesture (state : GestureState)
    (clientId : UInt64) (identity : ActionIdentity) :
    Option UInt64 × GestureState :=
  match state.ownedBy clientId with
  | none => (none, state)
  | some gestureId =>
    let (_, next) := state.enqueueGuardedActionWithAck
      ⟨clientId, ⟨identity, .endHistoryGesture gestureId⟩⟩
    (some gestureId, { next with active := none })

def drain (state : GestureState) : GestureState :=
  { state with queue := [], drained := state.drained ++ state.queue }

end GestureState

/-- A critical section of a client or of the host.  Only the two boundary
functions send boundaries. -/
inductive GestureCall
  | begin (clientId gestureId : UInt64) (identity : ActionIdentity)
  | finish (clientId gestureId : UInt64) (cancel : Bool)
      (identity : ActionIdentity)
  | act (clientId : UInt64) (action : Queued)
      (authored : action.payload.boundary = none)
  | disconnect (clientId : UInt64) (identity : ActionIdentity)
  | drain

namespace GestureCall

def beginSent (clientId gestureId : UInt64) (identity : ActionIdentity) : Sent :=
  ⟨clientId, ⟨identity, .beginHistoryGesture gestureId⟩⟩

def finishSent (clientId gestureId : UInt64) (cancel : Bool) (identity : ActionIdentity) : Sent :=
  ⟨clientId, ⟨identity, if cancel then .cancelHistoryGesture gestureId
    else .endHistoryGesture gestureId⟩⟩

def perform (state : GestureState) : GestureCall → GestureState
  | begin clientId gestureId identity =>
    (state.enqueueBrowserHistoryBegin clientId gestureId (beginSent clientId gestureId identity)).2
  | finish clientId gestureId cancel identity =>
    (state.enqueueBrowserHistoryFinish clientId gestureId cancel
      (finishSent clientId gestureId cancel identity)).2
  | act clientId action _ => (state.enqueueBrowserActionDuringGesture clientId ⟨clientId, action⟩).2
  | disconnect clientId identity => (state.disconnectBrowserHistoryGesture clientId identity).2
  | drain => state.drain

/-- The action a call sends to the queue once the ownership check let it
through. -/
def enqueues (state : GestureState) : GestureCall → Option Sent
  | begin clientId gestureId identity =>
    if state.active.isSome then none
    else some (beginSent clientId gestureId identity)
  | finish clientId gestureId cancel identity =>
    if state.mayFinish clientId gestureId cancel then
      some (finishSent clientId gestureId cancel identity)
    else none
  | act clientId action _ =>
    if state.isOwned action.payload &&
        !state.active.any (GestureState.mayAct · clientId action.payload) then
      none
    else some ⟨clientId, action⟩
  | disconnect clientId identity =>
    (state.ownedBy clientId).map (finishSent clientId · false identity)
  | drain => none

end GestureCall

/-- All of a full queue is reserved, and a boundary stands at its front. -/
def boundaryAtRisk (queue : List Sent) : Bool :=
  maxPendingActions ≤ queue.length && queue.all (fun sent => sent.action.payload.isPriority) &&
    queue.head?.any fun sent => sent.boundary.isSome

def GestureCall.evictsBoundary (state : GestureState) (call : GestureCall) : Bool :=
  (call.enqueues state).any fun sent =>
    sent.action.payload.isPriority &&
      !ActionQueue.absorbs state.queue sent && boundaryAtRisk state.queue

namespace GestureState

def after (calls : List GestureCall) : GestureState := calls.foldl GestureCall.perform empty

end GestureState

section

variable {T U : Type} [QueuedWebAction T] [QueuedWebAction U] {f : T → U}

end

end CollideOScope.Web
