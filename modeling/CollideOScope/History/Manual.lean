import CollideOScope.Support.Words
import Mathlib.Data.UInt

/-!
# Manual history

`ManualHistory` holds the undo and redo stacks of authored checkpoints, at most
one open gesture and at most one pending restore.  Both stacks are listed front
to back, so the next undo or redo target is the last element.

Two eviction loops keep the history within its limits.  They differ only in
when they stop, so both are `evictWhile`.
-/

namespace CollideOScope.History

def historyMaxEntries : ℕ := 128
def historyMaxBytes : ℕ := 64 * 1024 * 1024
def historyMaxCheckpointBytes : ℕ := 8 * 1024 * 1024

abbrev HistoryFingerprint := Bytes

inductive MutationOrigin where
  | browserManual | nativeManual | midi | lfo | audio | osc | clipTrigger
  | collisionScore | automation

def MutationOrigin.isManual : MutationOrigin → Bool
  | .browserManual => true
  | .nativeManual => true
  | _ => false

/-- `NonZeroU64` identities of gestures. -/
abbrev HistoryGestureId := {raw : UInt64 // raw ≠ 0}

/-- `NonZeroU64` identities of restores. -/
abbrev HistoryRestoreToken := {raw : UInt64 // raw ≠ 0}

structure HistoryLimits where
  (maxEntries maxBytes maxCheckpointBytes : ℕ)

def HistoryLimits.default : HistoryLimits where
  maxEntries := historyMaxEntries
  maxBytes := historyMaxBytes
  maxCheckpointBytes := historyMaxCheckpointBytes

inductive HistoryError where
  | invalidLimits
  | checkpointTooLarge (bytes limit : ℕ)
  | gestureAlreadyOpen (opened requested : HistoryGestureId)
  | gestureNotOpen
  | gestureMismatch (opened requested : HistoryGestureId)
  | restorePending | noRestorePending | staleRestoreToken
  | restoreTokenExhausted | restoreDescriptorMismatch | restoreStackChanged

/-- Admit only limits inside the hard bounds. -/
def HistoryLimits.bounded (limits : HistoryLimits) : Except HistoryError HistoryLimits :=
  if limits.maxEntries = 0
      ∨ limits.maxEntries > historyMaxEntries
      ∨ limits.maxBytes = 0
      ∨ limits.maxBytes > historyMaxBytes
      ∨ limits.maxCheckpointBytes = 0
      ∨ limits.maxCheckpointBytes > historyMaxCheckpointBytes
      ∨ limits.maxCheckpointBytes > limits.maxBytes then
    .error .invalidLimits
  else .ok limits

structure HistoryCheckpoint (T : Type) where
  state : T
  fingerprint : HistoryFingerprint
  bytes : ℕ
  (label category : String)

inductive HistoryRecordOutcome where
  | recorded | noChange | ignoredNonManual | cancelled

inductive HistoryRestoreDirection where
  | undo | redo

structure HistoryRestoreCandidate (T : Type) where
  token : HistoryRestoreToken
  direction : HistoryRestoreDirection
  target : HistoryCheckpoint T

structure OpenGesture (T : Type) where
  id : HistoryGestureId
  origin : MutationOrigin
  before : HistoryCheckpoint T

structure PendingRestore where
  token : HistoryRestoreToken
  direction : HistoryRestoreDirection
  targetFingerprint : HistoryFingerprint

structure ManualHistory (T : Type) where
  limits : HistoryLimits
  (undo redo : List (HistoryCheckpoint T))
  (undoBytes redoBytes : ℕ)
  opened : Option (OpenGesture T)
  pending : Option PendingRestore
  (nextRestoreToken generation : UInt64)

namespace ManualHistory

variable {T : Type}

def withLimits (limits : HistoryLimits) :
    Except HistoryError (ManualHistory T) := do
  let limits ← limits.bounded
  return {
    limits
    undo := []
    redo := []
    undoBytes := 0
    redoBytes := 0
    opened := none
    pending := none
    nextRestoreToken := 1
    generation := 1 }

def validateCheckpoint (history : ManualHistory T)
    (checkpoint : HistoryCheckpoint T) : Except HistoryError Unit :=
  if checkpoint.bytes > history.limits.maxCheckpointBytes then
    .error (.checkpointTooLarge checkpoint.bytes history.limits.maxCheckpointBytes)
  else .ok ()

/-- `allocate_restore_token`, with the history it leaves. -/
def allocateRestoreToken (history : ManualHistory T) :
    Except HistoryError (HistoryRestoreToken × ManualHistory T) :=
  if h : history.nextRestoreToken ≠ 0 then
    .ok (⟨history.nextRestoreToken, h⟩,
      { history with
        nextRestoreToken :=
          if history.nextRestoreToken.toNat + 1 < 2 ^ 64 then history.nextRestoreToken + 1
          else 0 })
  else .error .restoreTokenExhausted

def clearRedo (history : ManualHistory T) : ManualHistory T :=
  { history with redo := [], redoBytes := 0 }

def pushUndo (history : ManualHistory T) (checkpoint : HistoryCheckpoint T) : ManualHistory T :=
  { history with
    undoBytes := saturatingAddU64 history.undoBytes checkpoint.bytes
    undo := history.undo ++ [checkpoint] }

def bumpGeneration (history : ManualHistory T) : ManualHistory T :=
  { history with generation := nextRevision history.generation }

/-- The body of both eviction loops: drop the front of the undo stack, and of
the redo stack once the undo stack is empty. -/
def evictWhile (exceeds : ManualHistory T → Bool) (history : ManualHistory T) : ManualHistory T :=
  if exceeds history then
    match _hundo : history.undo with
    | removed :: undo =>
      evictWhile exceeds { history with
        undo := undo
        undoBytes := history.undoBytes - removed.bytes }
    | [] =>
      match _hredo : history.redo with
      | removed :: redo =>
        evictWhile exceeds { history with
          redo := redo
          redoBytes := history.redoBytes - removed.bytes }
      | [] => history
  else history
termination_by history.undo.length + history.redo.length
decreasing_by
  · simp [_hundo]
  · simp [_hredo]

theorem evictWhile_of_within {exceeds : ManualHistory T → Bool}
    {history : ManualHistory T} (h : exceeds history = false) :
    evictWhile exceeds history = history := by
  rw [evictWhile, h]
  rfl

/-- The loop condition of `trim_to_limits`. -/
def exceedsLimits (history : ManualHistory T) : Bool :=
  decide (history.undo.length + history.redo.length > history.limits.maxEntries) ||
    decide (saturatingAddU64 history.undoBytes history.redoBytes > history.limits.maxBytes)

/-- The loop condition of `make_room_for_open`. -/
def exceedsWithOpen (openBytes : ℕ) (history : ManualHistory T) : Bool :=
  decide (history.undo.length + history.redo.length + 1 > history.limits.maxEntries) ||
    decide (saturatingAddU64 (saturatingAddU64 history.undoBytes history.redoBytes) openBytes >
      history.limits.maxBytes)

def trimToLimits (history : ManualHistory T) : ManualHistory T := evictWhile exceedsLimits history

def makeRoomForOpen (history : ManualHistory T) (openBytes : ℕ) : ManualHistory T :=
  evictWhile (exceedsWithOpen openBytes) history

def beginGesture (history : ManualHistory T) (id : HistoryGestureId)
    (origin : MutationOrigin) (before : HistoryCheckpoint T) :
    Except HistoryError HistoryRecordOutcome × ManualHistory T :=
  if !origin.isManual then (.ok .ignoredNonManual, history)
  else if history.pending.isSome then (.error .restorePending, history)
  else
    match history.opened with
    | some opened => (.error (.gestureAlreadyOpen opened.id id), history)
    | none =>
      match history.validateCheckpoint before with
      | .error error => (.error error, history)
      | .ok () =>
        let history := history.makeRoomForOpen before.bytes
        let history := { history with opened := some ⟨id, origin, before⟩ }
        (.ok .recorded, history.bumpGeneration)

def finishGesture (history : ManualHistory T) (id : HistoryGestureId)
    (afterFingerprint : HistoryFingerprint) :
    Except HistoryError HistoryRecordOutcome × ManualHistory T :=
  if history.pending.isSome then (.error .restorePending, history)
  else
    match history.opened with
    | none => (.error .gestureNotOpen, history)
    | some opened =>
      if opened.id ≠ id then (.error (.gestureMismatch opened.id id), history)
      else
        let history := { history with opened := none }
        if opened.before.fingerprint = afterFingerprint then (.ok .noChange, history.bumpGeneration)
        else
          (.ok .recorded,
            (history.clearRedo.pushUndo opened.before).trimToLimits
              |>.bumpGeneration)

def cancelGesture (history : ManualHistory T) (id : HistoryGestureId) :
    Except HistoryError HistoryRecordOutcome × ManualHistory T :=
  if history.pending.isSome then (.error .restorePending, history)
  else
    match history.opened with
    | none => (.error .gestureNotOpen, history)
    | some opened =>
      if opened.id ≠ id then (.error (.gestureMismatch opened.id id), history)
      else
        let history := { history with opened := none }
        (.ok .cancelled, history.bumpGeneration)

def recordManual (history : ManualHistory T) (origin : MutationOrigin)
    (before : HistoryCheckpoint T) (afterFingerprint : HistoryFingerprint) :
    Except HistoryError HistoryRecordOutcome × ManualHistory T :=
  if !origin.isManual then (.ok .ignoredNonManual, history)
  else if history.pending.isSome then (.error .restorePending, history)
  else
    match history.opened with
    | some opened => (.error (.gestureAlreadyOpen opened.id opened.id), history)
    | none =>
      match history.validateCheckpoint before with
      | .error error => (.error error, history)
      | .ok () =>
        if before.fingerprint = afterFingerprint then (.ok .noChange, history)
        else
          (.ok .recorded,
            (history.clearRedo.pushUndo before).trimToLimits
              |>.bumpGeneration)

def restoreStack (history : ManualHistory T) : HistoryRestoreDirection → List (HistoryCheckpoint T)
  | .undo => history.undo
  | .redo => history.redo

def prepareRestore (history : ManualHistory T) (direction : HistoryRestoreDirection) :
    Except HistoryError (Option (HistoryRestoreCandidate T)) × ManualHistory T :=
  if history.pending.isSome then (.error .restorePending, history)
  else
    match history.opened with
    | some opened => (.error (.gestureAlreadyOpen opened.id opened.id), history)
    | none =>
      match (history.restoreStack direction).getLast? with
      | none => (.ok none, history)
      | some target =>
        match history.allocateRestoreToken with
        | .error error => (.error error, history)
        | .ok (token, history) =>
          let history := { history with pending := some ⟨token, direction, target.fingerprint⟩ }
          (.ok (some ⟨token, direction, target⟩), history.bumpGeneration)

def prepareUndo (history : ManualHistory T) :
    Except HistoryError (Option (HistoryRestoreCandidate T)) × ManualHistory T :=
  history.prepareRestore .undo

def prepareRedo (history : ManualHistory T) :
    Except HistoryError (Option (HistoryRestoreCandidate T)) × ManualHistory T :=
  history.prepareRestore .redo

def rejectRestore (history : ManualHistory T) (token : HistoryRestoreToken) :
    Except HistoryError Unit × ManualHistory T :=
  match history.pending with
  | none => (.error .noRestorePending, history)
  | some pending =>
    if pending.token ≠ token then (.error .staleRestoreToken, history)
    else
      let history := { history with pending := none }
      (.ok (), history.bumpGeneration)

/-- The two stack moves of `commit_restore`. -/
def moveRestored (history : ManualHistory T) (direction : HistoryRestoreDirection)
    (removed current : HistoryCheckpoint T) : ManualHistory T :=
  match direction with
  | .undo =>
    { history with
      undo := history.undo.dropLast
      undoBytes := history.undoBytes - removed.bytes
      redoBytes := saturatingAddU64 history.redoBytes current.bytes
      redo := history.redo ++ [current] }
  | .redo =>
    { history with
      redo := history.redo.dropLast
      redoBytes := history.redoBytes - removed.bytes
      undoBytes := saturatingAddU64 history.undoBytes current.bytes
      undo := history.undo ++ [current] }

def commitRestore (history : ManualHistory T) (token : HistoryRestoreToken)
    (current : HistoryCheckpoint T) :
    Except HistoryError Unit × ManualHistory T :=
  match history.pending with
  | none => (.error .noRestorePending, history)
  | some pending =>
    if pending.token ≠ token then (.error .staleRestoreToken, history)
    else
      match history.validateCheckpoint current with
      | .error error => (.error error, history)
      | .ok () =>
        match (history.restoreStack pending.direction).getLast? with
        | none => (.error .restoreStackChanged, history)
        | some target =>
          if target.fingerprint ≠ pending.targetFingerprint then
            (.error .restoreStackChanged, history)
          else if target.label ≠ current.label ∨ target.category ≠ current.category then
            (.error .restoreDescriptorMismatch, history)
          else
            let history := { history with pending := none }
            (.ok (),
              (history.moveRestored pending.direction target
                current).trimToLimits |>.bumpGeneration)

end ManualHistory

end CollideOScope.History
