import CollideOScope.Actions.Envelope
import CollideOScope.Support.RingBuffer

/-!
# The action correlation monitor

The monitor follows an applied action to the submission that presents it.  It
owns a fixed array of pending actions, a fixed ring of receipts and two windows
of durations.  A receipt carries the ordinal of its completion, because
independent adapters finish out of the order of action sequences.

The debug assertions on dispositions are not modelled: they are absent from a
release build.
-/

namespace CollideOScope.Actions

def actionTimingWindow : ℕ := 512

def maxCorrelatedActionsInFlight : ℕ := 512

structure ActionCorrelationReceipt where
  sequence : ActionSequence
  source : ActionSourceClass
  disposition : ActionDisposition
  (ingressToApplyUs applyToSubmitUs submissionGeneration : Option ℕ)

structure PendingAction where
  sequence : ActionSequence
  source : ActionSourceClass
  (ingress applied : Instant)

structure StoredActionReceipt where
  completionOrdinal : ℕ
  receipt : ActionCorrelationReceipt

/-- `duration_micros_u32`: whole microseconds, saturated at 32 bits. -/
def durationMicrosU32 (duration : Duration) : ℕ := min (duration / 1000) (2 ^ 32 - 1)

/-- The last durations recorded, as a plain array that starts at zero. -/
structure DurationWindow where
  values : List ℕ
  (next count : ℕ)

namespace DurationWindow

def default : DurationWindow where
  values := List.replicate actionTimingWindow 0
  next := 0
  count := 0

def record (window : DurationWindow) (duration : Duration) : DurationWindow where
  values := window.values.set window.next (durationMicrosU32 duration)
  next := (window.next + 1) % actionTimingWindow
  count := min (window.count + 1) actionTimingWindow

end DurationWindow

/-- The ring of receipts stands for the fields `receipts`, `next_receipt` and
`receipt_count`. -/
structure ActionCorrelationMonitor where
  pending : List (Option PendingAction)
  pendingCount : ℕ
  receipts : RingBuffer StoredActionReceipt
  nextCompletionOrdinal : ℕ
  (ingressToApply applyToSubmit : DurationWindow)
  (lastPresentedSequence lastSubmissionGeneration uncorrelatedOverCapacity : ℕ)

def terminalReceipt (sequence : ActionSequence) (source : ActionSourceClass)
    (disposition : ActionDisposition) : ActionCorrelationReceipt where
  sequence := sequence
  source := source
  disposition := disposition
  ingressToApplyUs := none
  applyToSubmitUs := none
  submissionGeneration := none

namespace PendingAction

def identity (pending : PendingAction) : ActionIdentity :=
  ⟨pending.sequence, pending.source, pending.ingress⟩

def apply (identity : ActionIdentity) (applied : Instant) : PendingAction where
  sequence := identity.sequence
  source := identity.source
  ingress := identity.ingress
  applied := max applied identity.ingress

/-- The time from the application to a submission. -/
def applyToSubmit (pending : PendingAction) (submitted : Instant) : Duration :=
  max submitted pending.applied - pending.applied

def presentedReceipt (pending : PendingAction) (submissionGeneration : ℕ)
    (submitted : Instant) : ActionCorrelationReceipt where
  sequence := pending.sequence
  source := pending.source
  disposition := .presented
  ingressToApplyUs := some (durationMicrosU32 (pending.applied - pending.ingress))
  applyToSubmitUs := some (durationMicrosU32 (pending.applyToSubmit submitted))
  submissionGeneration := some submissionGeneration

end PendingAction

namespace ActionCorrelationMonitor

def default : ActionCorrelationMonitor where
  pending := List.replicate maxCorrelatedActionsInFlight none
  pendingCount := 0
  receipts := RingBuffer.empty actionTimingWindow
  nextCompletionOrdinal := 1
  ingressToApply := DurationWindow.default
  applyToSubmit := DurationWindow.default
  lastPresentedSequence := 0
  lastSubmissionGeneration := 0
  uncorrelatedOverCapacity := 0

def pushReceipt (monitor : ActionCorrelationMonitor)
    (receipt : ActionCorrelationReceipt) : ActionCorrelationMonitor :=
  { monitor with
    nextCompletionOrdinal := saturatingAddU64 monitor.nextCompletionOrdinal 1
    receipts := monitor.receipts.push ⟨monitor.nextCompletionOrdinal, receipt⟩ }

def recordTerminal (monitor : ActionCorrelationMonitor) (sequence : ActionSequence)
    (source : ActionSourceClass) (disposition : ActionDisposition) : ActionCorrelationMonitor :=
  monitor.pushReceipt (terminalReceipt sequence source disposition)

def recordTerminalIdentity (monitor : ActionCorrelationMonitor)
    (identity : ActionIdentity) (disposition : ActionDisposition) :
    ActionCorrelationMonitor :=
  monitor.recordTerminal identity.sequence identity.source disposition

/-- The refusal of an action that finds no room to be followed. -/
def recordOverCapacity (monitor : ActionCorrelationMonitor)
    (identity : ActionIdentity) : ActionCorrelationMonitor :=
  { monitor with
    uncorrelatedOverCapacity := saturatingAddU64 monitor.uncorrelatedOverCapacity 1
    : ActionCorrelationMonitor }.recordTerminal
    identity.sequence identity.source .notYetPresented

def recordApplyIdentity (monitor : ActionCorrelationMonitor)
    (identity : ActionIdentity) (applied : Instant) :
    Bool × ActionCorrelationMonitor :=
  if monitor.pendingCount ≥ maxCorrelatedActionsInFlight then
    (false, monitor.recordOverCapacity identity)
  else
    match monitor.pending.findIdx? Option.isNone with
    | none => (false, monitor.recordOverCapacity identity)
    | some slot =>
      let pending := PendingAction.apply identity applied
      (true, { monitor with
        ingressToApply := monitor.ingressToApply.record (pending.applied - identity.ingress)
        pending := monitor.pending.set slot (some pending)
        pendingCount := monitor.pendingCount + 1 })

/-- One slot of the loops that close pending actions: take the slot when its
action is to be closed. -/
def takeSlot (closes : PendingAction → Bool) (slot : Option PendingAction) : Option PendingAction :=
  slot.filter fun pending => !closes pending

/-- The scan both closing calls begin with: the closed actions in slot order,
and the monitor without them. -/
def takePending (monitor : ActionCorrelationMonitor) (closes : PendingAction → Bool) :
    List PendingAction × ActionCorrelationMonitor :=
  let completed := monitor.pending.filterMap fun slot => slot.filter closes
  (completed, { monitor with
    pending := monitor.pending.map (takeSlot closes)
    pendingCount := monitor.pendingCount - completed.length })

def terminalizeAllPending (monitor : ActionCorrelationMonitor)
    (disposition : ActionDisposition) : ℕ × ActionCorrelationMonitor :=
  let (completed, cleared) := monitor.takePending fun _ => true
  (completed.length, completed.foldl (fun monitor pending =>
    monitor.recordTerminal pending.sequence pending.source disposition) cleared)

def recordPresented (submissionGeneration : ℕ) (submitted : Instant)
    (monitor : ActionCorrelationMonitor) (pending : PendingAction) :
    ActionCorrelationMonitor :=
  let pushed := { monitor with
    applyToSubmit := monitor.applyToSubmit.record (pending.applyToSubmit submitted)
    : ActionCorrelationMonitor }.pushReceipt
      (pending.presentedReceipt submissionGeneration submitted)
  { pushed with lastPresentedSequence := max pushed.lastPresentedSequence pending.sequence.val }

def recordSubmission (monitor : ActionCorrelationMonitor) (highestApplied : ActionSequence)
    (submissionGeneration : ℕ) (submitted : Instant) : ActionCorrelationMonitor :=
  let (completed, cleared) := monitor.takePending fun pending => pending.sequence ≤ highestApplied
  let presented := completed.foldl (recordPresented submissionGeneration submitted) cleared
  { presented with
    lastSubmissionGeneration := max presented.lastSubmissionGeneration submissionGeneration }

def storedReceipts (monitor : ActionCorrelationMonitor) : List StoredActionReceipt :=
  monitor.receipts.toList

def receiptsAfter (monitor : ActionCorrelationMonitor)
    (completionOrdinal : ℕ) : List (ℕ × ActionCorrelationReceipt) :=
  (monitor.storedReceipts.filter fun stored =>
    completionOrdinal < stored.completionOrdinal).map fun stored =>
      (stored.completionOrdinal, stored.receipt)

/-- `for_each_action_receipt_after`: the receipts visited and the cursor to
poll with next. -/
def forEachActionReceiptAfter (monitor : ActionCorrelationMonitor)
    (afterCompletion : ℕ) : List ActionCorrelationReceipt × ℕ :=
  let visited := monitor.receiptsAfter afterCompletion
  (visited.map Prod.snd, (visited.map Prod.fst).foldl max afterCompletion)

end ActionCorrelationMonitor

end CollideOScope.Actions
