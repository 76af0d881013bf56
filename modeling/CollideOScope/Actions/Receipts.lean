import Mathlib.Data.List.Nodup
import CollideOScope.Actions.Correlation

/-!
# Every action gets one receipt

The log of a run of calls lists every completion with the identity it belongs
to.  The ring of the monitor holds the numbered end of the log, whatever the
order of the calls; an applied identity is completed once, at the moment its
fate names, or stays pending; and a poller that passes the last ordinal it saw
reads the whole log.
-/

namespace CollideOScope.Actions

open Nat ActionCorrelationMonitor PendingAction List Option

inductive Call
  | recordApplyIdentity (identity : ActionIdentity) (applied : Instant)
  | recordTerminalIdentity (identity : ActionIdentity)
      (disposition : ActionDisposition)
  | recordSubmission (highestApplied : ActionSequence)
      (submissionGeneration : ℕ) (submitted : Instant)
  | terminalizeAllPending (disposition : ActionDisposition)

/-- A receipt with the identity it completes.  A requested completion was asked
for by `record_terminal_identity`. -/
structure Completion where
  identity : ActionIdentity
  receipt : ActionCorrelationReceipt
  requested : Bool

/-- The actions that occupy a slot, in slot order. -/
def ActionCorrelationMonitor.actions (monitor : ActionCorrelationMonitor) : List PendingAction :=
  monitor.pending.filterMap id

/-- The refusal condition of `record_apply_identity`. -/
def ActionCorrelationMonitor.isFull (monitor : ActionCorrelationMonitor) : Bool :=
  monitor.pendingCount ≥ maxCorrelatedActionsInFlight

namespace Call

def perform (monitor : ActionCorrelationMonitor) : Call → ActionCorrelationMonitor
  | recordApplyIdentity identity applied => (monitor.recordApplyIdentity identity applied).2
  | recordTerminalIdentity identity disposition =>
    monitor.recordTerminalIdentity identity disposition
  | recordSubmission highestApplied submissionGeneration submitted =>
    monitor.recordSubmission highestApplied submissionGeneration submitted
  | terminalizeAllPending disposition => (monitor.terminalizeAllPending disposition).2

def applies : Call → Option ActionIdentity
  | recordApplyIdentity identity _ => some identity
  | _ => none

def settles (call : Call) (pending : PendingAction) : Option ActionCorrelationReceipt :=
  match call with
  | recordSubmission highestApplied submissionGeneration submitted =>
    if pending.sequence ≤ highestApplied then
      some (pending.presentedReceipt submissionGeneration submitted)
    else none
  | terminalizeAllPending disposition =>
    some (terminalReceipt pending.sequence pending.source disposition)
  | _ => none

def completes (call : Call) (pending : PendingAction) : Option Completion :=
  (call.settles pending).map fun receipt => ⟨pending.identity, receipt, false⟩

def completions (monitor : ActionCorrelationMonitor) (call : Call) : List Completion :=
  match call with
  | recordApplyIdentity identity _ =>
    if monitor.isFull then
      [⟨identity, terminalReceipt identity.sequence identity.source .notYetPresented, false⟩]
    else []
  | recordTerminalIdentity identity disposition =>
    [⟨identity, terminalReceipt identity.sequence identity.source disposition, true⟩]
  | call => monitor.actions.filterMap call.completes

end Call

def run (monitor : ActionCorrelationMonitor) (calls : List Call) : ActionCorrelationMonitor :=
  calls.foldl Call.perform monitor

@[simp] theorem run_nil (monitor : ActionCorrelationMonitor) : run monitor [] = monitor := rfl

def log (monitor : ActionCorrelationMonitor) : List Call → List Completion
  | [] => []
  | call :: calls => call.completions monitor ++ log (call.perform monitor) calls

section

variable (monitor : ActionCorrelationMonitor)

@[simp] theorem run_cons (call : Call) (calls : List Call) :
    run monitor (call :: calls) = run (call.perform monitor) calls := rfl

theorem run_append (before after : List Call) :
    run monitor (before ++ after) = run (run monitor before) after :=
  foldl_append

theorem log_append (before after : List Call) :
    log monitor (before ++ after) = log monitor before ++ log (run monitor before) after := by
  induction before generalizing monitor with
  | nil => rfl
  | cons call before ih => simp [log, ih, append_assoc]

end

theorem foldl_field {σ ι β : Type} (f : σ → β) {step : σ → ι → σ}
    (hstep : ∀ s i, f (step s i) = f s) (s : σ) (is : List ι) :
    f (is.foldl step s) = f s := by
  induction is generalizing s with
  | nil => rfl
  | cons i is ih => rw [foldl_cons, ih, hstep]

def ActionCorrelationMonitor.ledger (monitor : ActionCorrelationMonitor) :
    ℕ × RingBuffer StoredActionReceipt :=
  (monitor.nextCompletionOrdinal, monitor.receipts)

/-- `push_receipt` on a ledger. -/
def writeReceipt (ledger : ℕ × RingBuffer StoredActionReceipt)
    (receipt : ActionCorrelationReceipt) :
    ℕ × RingBuffer StoredActionReceipt :=
  (saturatingAddU64 ledger.1 1, ledger.2.push ⟨ledger.1, receipt⟩)

theorem foldl_ledger {step : ActionCorrelationMonitor → PendingAction → ActionCorrelationMonitor}
    (receipt : PendingAction → ActionCorrelationReceipt)
    (hstep : ∀ monitor pending, (step monitor pending).ledger =
      writeReceipt monitor.ledger (receipt pending))
    (monitor : ActionCorrelationMonitor) (completed : List PendingAction) :
    (completed.foldl step monitor).ledger =
      (completed.map receipt).foldl writeReceipt monitor.ledger := by
  induction completed generalizing monitor with
  | nil => rfl
  | cons pending completed ih => rw [foldl_cons, ih, hstep]; rfl

/-- The slots in use are counted, and there are `512` slots. -/
structure Sound (monitor : ActionCorrelationMonitor) : Prop where
  slots : monitor.pending.length = maxCorrelatedActionsInFlight
  counted : monitor.pendingCount = monitor.actions.length

theorem sound_default : Sound ActionCorrelationMonitor.default where
  slots := length_replicate
  counted := by
    simp [ActionCorrelationMonitor.default, actions]

variable {monitor : ActionCorrelationMonitor}

theorem Sound.pendingCount_le (h : Sound monitor) :
    monitor.pendingCount ≤ maxCorrelatedActionsInFlight := by
  rw [h.counted, ← h.slots]
  exact length_filterMap_le _ _

variable {α : Type}

theorem filterMap_id_length_of_forall_isSome {slots : List (Option α)}
    (h : ∀ slot ∈ slots, slot.isSome) :
    (slots.filterMap id).length = slots.length := by
  induction slots with
  | nil => rfl
  | cons slot slots ih =>
    obtain ⟨value, rfl⟩ := isSome_iff_exists.mp (h slot (by simp))
    simpa using ih fun slot hslot => h slot (by simp [hslot])

theorem Sound.exists_free (h : Sound monitor) (hroom : ¬ monitor.isFull) :
    ∃ before after, monitor.pending = before ++ none :: after ∧
      monitor.pending.findIdx? isNone = some before.length := by
  have hfree : (monitor.pending.findIdx? isNone).isSome := by
    rw [isSome_iff_ne_none]
    intro hnone
    have hall : ∀ slot ∈ monitor.pending, slot.isSome := by
      intro slot hslot
      have := findIdx?_eq_none_iff.mp hnone slot hslot
      simpa using this
    have hcnt := filterMap_id_length_of_forall_isSome hall
    rw [← actions, ← h.counted, h.slots] at hcnt
    simp [isFull, hcnt] at hroom
  obtain ⟨slot, hslot⟩ := isSome_iff_exists.mp hfree
  obtain ⟨hlt, hnone, -⟩ := findIdx?_eq_some_iff_getElem.mp hslot
  refine ⟨monitor.pending.take slot, monitor.pending.drop (slot + 1), ?_, ?_⟩
  · have hget : monitor.pending[slot] = none := by simpa using hnone
    conv_lhs => rw [← take_append_drop slot monitor.pending, drop_eq_getElem_cons hlt, hget]
  · rw [hslot, length_take, min_eq_left hlt.le]

theorem filterMap_slot (before after : List (Option α)) (slot : Option α) :
    (before ++ slot :: after).filterMap id =
      before.filterMap id ++ (slot.toList ++ after.filterMap id) := by
  cases slot <;> simp

theorem perform_apply (h : Sound monitor)
    (hroom : ¬ monitor.isFull) (identity : ActionIdentity) (applied : Instant) :
    ∃ before after window, monitor.pending = before ++ none :: after ∧
      (Call.recordApplyIdentity identity applied).perform monitor =
        { monitor with
          ingressToApply := window
          pending := before ++ some (PendingAction.apply identity applied) :: after
          pendingCount := monitor.pendingCount + 1 } := by
  obtain ⟨before, after, hpend, hslot⟩ := h.exists_free hroom
  have hcnt : ¬ monitor.pendingCount ≥ maxCorrelatedActionsInFlight := by simpa [isFull] using hroom
  have hset :
      monitor.pending.set before.length (some (apply identity applied)) =
      before ++ some (apply identity applied) :: after := by
    rw [hpend, set_append_right _ _ le_rfl, Nat.sub_self, set_cons_zero]
  refine ⟨before, after, monitor.ingressToApply.record
    ((apply identity applied).applied - identity.ingress),
    hpend, ?_⟩
  simp only [Call.perform, recordApplyIdentity, if_neg hcnt, hslot, hset]

theorem perform_apply_full
    (hfull : monitor.isFull) (identity : ActionIdentity) (applied : Instant) :
    (Call.recordApplyIdentity identity applied).perform monitor =
      monitor.recordOverCapacity identity := by
  have hcnt : monitor.pendingCount ≥ maxCorrelatedActionsInFlight := by simpa [isFull] using hfull
  simp only [Call.perform, recordApplyIdentity, if_pos hcnt]

section

variable (monitor : ActionCorrelationMonitor) (closes : PendingAction → Bool)

theorem actions_takePending :
    (monitor.takePending closes).2.actions =
      monitor.actions.filter fun pending => !closes pending := by
  simp only [takePending, actions, filterMap_map, filter_filterMap]
  rfl

theorem takePending_completed : (monitor.takePending closes).1 = monitor.actions.filter closes := by
  simp only [takePending, actions, filter_filterMap]
  rfl

end

theorem Sound.takePending {monitor : ActionCorrelationMonitor}
    (h : Sound monitor) (closes : PendingAction → Bool) :
    Sound (monitor.takePending closes).2 := by
  refine ⟨?_, ?_⟩
  · simpa [ActionCorrelationMonitor.takePending] using h.slots
  · have hsplit := length_eq_length_filter_add closes (l := monitor.actions)
    have hcomp := congrArg length (takePending_completed monitor closes)
    have hcnt : (monitor.takePending closes).2.pendingCount =
        monitor.pendingCount - (monitor.takePending closes).1.length := rfl
    rw [actions_takePending, hcnt, hcomp, h.counted]
    omega

theorem foldl_recorded (record : ActionCorrelationMonitor → PendingAction →
      ActionCorrelationMonitor)
    (receipt : PendingAction → ActionCorrelationReceipt)
    (h : ∀ monitor pending,
      (record monitor pending).pending = monitor.pending ∧
        (record monitor pending).pendingCount = monitor.pendingCount ∧
        (record monitor pending).ledger = writeReceipt monitor.ledger (receipt pending))
    (monitor : ActionCorrelationMonitor) (completed : List PendingAction) :
    (completed.foldl record monitor).pending = monitor.pending ∧
      (completed.foldl record monitor).pendingCount = monitor.pendingCount ∧
      (completed.foldl record monitor).ledger =
        (completed.map receipt).foldl writeReceipt monitor.ledger :=
  ⟨foldl_field ActionCorrelationMonitor.pending (fun m p => (h m p).1) _ _,
    foldl_field ActionCorrelationMonitor.pendingCount (fun m p => (h m p).2.1) _ _,
    foldl_ledger _ (fun m p => (h m p).2.2) _ _⟩

theorem perform_submission (monitor : ActionCorrelationMonitor)
    (highest : ActionSequence) (generation : ℕ) (submitted : Instant) :
    let performed := (Call.recordSubmission highest generation submitted).perform monitor
    let scanned := monitor.takePending fun pending => pending.sequence ≤ highest
    performed.pending = scanned.2.pending ∧
      performed.pendingCount = scanned.2.pendingCount ∧
      performed.ledger = (scanned.1.map fun pending =>
        pending.presentedReceipt generation submitted).foldl writeReceipt
          monitor.ledger := by
  exact foldl_recorded (recordPresented generation submitted)
    (·.presentedReceipt generation submitted) (fun _ _ => ⟨rfl, rfl, rfl⟩) _ _

theorem perform_terminalize (monitor : ActionCorrelationMonitor) (disposition : ActionDisposition) :
    let performed := (Call.terminalizeAllPending disposition).perform monitor
    let scanned := monitor.takePending fun _ => true
    performed.pending = scanned.2.pending ∧
      performed.pendingCount = scanned.2.pendingCount ∧
      performed.ledger = (scanned.1.map fun pending =>
        terminalReceipt pending.sequence pending.source
          disposition).foldl writeReceipt monitor.ledger := by
  exact foldl_recorded
    (fun m pending => m.recordTerminal pending.sequence pending.source disposition)
    (fun pending => terminalReceipt pending.sequence pending.source disposition)
    (fun _ _ => ⟨rfl, rfl, rfl⟩) _ _

theorem actions_perform {call : Call} (h : call.applies = none)
    (monitor : ActionCorrelationMonitor) :
    (call.perform monitor).actions =
      monitor.actions.filter fun pending => (call.settles pending).isNone := by
  cases call with
  | recordApplyIdentity identity applied => cases h
  | recordTerminalIdentity identity disposition => exact (filter_eq_self.mpr fun _ _ => rfl).symm
  | recordSubmission highest generation submitted =>
    rw [actions, (perform_submission monitor highest generation submitted).1,
      ← actions, actions_takePending]
    refine filter_congr fun pending _ => ?_
    by_cases hle : pending.sequence ≤ highest <;> simp [Call.settles, hle]
  | terminalizeAllPending disposition =>
    rw [actions, (perform_terminalize monitor disposition).1, ← actions, actions_takePending]
    exact filter_congr fun _ _ => rfl

theorem Sound.perform {monitor : ActionCorrelationMonitor} (h : Sound monitor)
    (call : Call) : Sound (call.perform monitor) := by
  cases call with
  | recordApplyIdentity identity applied =>
    by_cases hfull : monitor.isFull
    · rw [perform_apply_full hfull]
      exact ⟨h.slots, h.counted⟩
    · obtain ⟨before, after, window, hpend, hperf⟩ := perform_apply h hfull identity applied
      have hslots := h.slots
      have hcounted := h.counted
      rw [hpend] at hslots
      rw [actions, hpend, filterMap_slot] at hcounted
      rw [hperf]
      refine ⟨by simpa using hslots, ?_⟩
      rw [actions, filterMap_slot]
      simp only [hcounted, length_append, toList_none, toList_some, length_nil, length_singleton]
      omega
  | recordTerminalIdentity identity disposition => exact ⟨h.slots, h.counted⟩
  | recordSubmission highest generation submitted =>
    obtain ⟨hpend, hcnt, -⟩ := perform_submission monitor highest generation submitted
    have hscan := h.takePending fun pending => pending.sequence ≤ highest
    refine ⟨hpend ▸ hscan.slots, ?_⟩
    rw [hcnt, actions, hpend]
    exact hscan.counted
  | terminalizeAllPending disposition =>
    obtain ⟨hpend, hcnt, -⟩ := perform_terminalize monitor disposition
    have hscan := h.takePending fun _ => true
    refine ⟨hpend ▸ hscan.slots, ?_⟩
    rw [hcnt, actions, hpend]
    exact hscan.counted

theorem perform_ledger {monitor : ActionCorrelationMonitor} (h : Sound monitor) (call : Call) :
    (call.perform monitor).ledger =
      ((call.completions monitor).map Completion.receipt).foldl writeReceipt
        monitor.ledger := by
  cases call with
  | recordApplyIdentity identity applied =>
    by_cases hfull : monitor.isFull
    · rw [perform_apply_full hfull, Call.completions, if_pos hfull]
      rfl
    · obtain ⟨before, after, window, hpend, hperf⟩ := perform_apply h hfull identity applied
      rw [hperf, Call.completions, if_neg hfull]
      rfl
  | recordTerminalIdentity identity disposition => rfl
  | recordSubmission highest generation submitted =>
    rw [(perform_submission monitor highest generation submitted).2.2, takePending_completed]
    congr 1
    simp only [Call.completions, map_filterMap]
    rw [← filterMap_eq_map, filterMap_filter]
    refine filterMap_congr fun pending _ => ?_
    by_cases hle : pending.sequence ≤ highest <;>
      simp [Call.completes, Call.settles, hle]
  | terminalizeAllPending disposition =>
    rw [(perform_terminalize monitor disposition).2.2, takePending_completed]
    congr 1
    simp only [Call.completions, map_filterMap]
    rw [← filterMap_eq_map, filterMap_filter]
    exact filterMap_congr fun _ _ => rfl

/-- The log's receipts with the ordinals of their completion. -/
def numbered (receipts : List ActionCorrelationReceipt) : List (ℕ × ActionCorrelationReceipt) :=
  (receipts.zipIdx 1).map Prod.swap

def store (stored : ℕ × ActionCorrelationReceipt) : StoredActionReceipt := ⟨stored.1, stored.2⟩

@[simp] theorem numbered_length (receipts : List ActionCorrelationReceipt) :
    (numbered receipts).length = receipts.length := by
  simp [numbered]

theorem numbered_concat (receipts : List ActionCorrelationReceipt)
    (receipt : ActionCorrelationReceipt) :
    numbered (receipts ++ [receipt]) = numbered receipts ++ [(receipts.length + 1, receipt)] := by
  simp [numbered, zipIdx_append, add_comm]

theorem numbered_append (seen unseen : List ActionCorrelationReceipt) :
    numbered (seen ++ unseen) =
      numbered seen ++ (unseen.zipIdx (1 + seen.length)).map Prod.swap := by
  simp [numbered, zipIdx_append]

structure Written (ledger : ℕ × RingBuffer StoredActionReceipt)
    (receipts : List ActionCorrelationReceipt) : Prop where
  ordinal : ledger.1 = min (receipts.length + 1) u64Max
  ring : ledger.2.Holds actionTimingWindow ((numbered receipts).map store)

theorem written_default : Written ActionCorrelationMonitor.default.ledger [] where
  ordinal := rfl
  ring := RingBuffer.holds_empty actionTimingWindow

theorem actionTimingWindow_pos : 0 < actionTimingWindow := by
  decide

variable {ledger : ℕ × RingBuffer StoredActionReceipt} {receipts : List ActionCorrelationReceipt}

theorem Written.writeReceipt (h : Written ledger receipts) (receipt : ActionCorrelationReceipt)
    (hbelow : receipts.length + 1 ≤ u64Max) :
    Written (writeReceipt ledger receipt) (receipts ++ [receipt]) := by
  obtain ⟨hord, hring⟩ := h
  refine ⟨?_, ?_⟩
  · simp only [Actions.writeReceipt, saturatingAddU64, hord, length_append, length_singleton]
    omega
  · have hstore : (⟨ledger.1, receipt⟩ : StoredActionReceipt) =
        store (receipts.length + 1, receipt) := by
      rw [hord, min_eq_left hbelow]
      rfl
    rw [numbered_concat, map_append, map_singleton, ← hstore]
    exact hring.push actionTimingWindow_pos _

theorem Written.foldl (h : Written ledger receipts)
    (written : List ActionCorrelationReceipt) (hbelow : (receipts ++ written).length ≤ u64Max) :
    Written (written.foldl Actions.writeReceipt ledger) (receipts ++ written) := by
  induction written generalizing ledger receipts with
  | nil => simpa using h
  | cons receipt written ih =>
    rw [length_append, length_cons] at hbelow
    have hstep := h.writeReceipt receipt (by omega)
    have hrest := ih hstep (by simp; omega)
    simpa using hrest

def pendingOf (identity : ActionIdentity) (monitor : ActionCorrelationMonitor) :
    List PendingAction :=
  monitor.actions.filter fun pending => pending.identity = identity

theorem pendingOf_default (identity : ActionIdentity) : pendingOf identity .default = [] := by
  simp [pendingOf, actions, ActionCorrelationMonitor.default]

def givenTo (identity : ActionIdentity) (log : List Completion) : List Completion :=
  log.filter fun completion => !completion.requested && completion.identity = identity

/-- The receipt an application and the calls after it lead to: over capacity
the action is not presented, else the first call that settles it decides. -/
def fate (monitor : ActionCorrelationMonitor) (identity : ActionIdentity)
    (applied : Instant) (after : List Call) :
    Option ActionCorrelationReceipt :=
  if monitor.isFull then some (terminalReceipt identity.sequence identity.source .notYetPresented)
  else after.findSome? fun call => call.settles (PendingAction.apply identity applied)

theorem givenTo_append (identity : ActionIdentity) (before after : List Completion) :
    givenTo identity (before ++ after) = givenTo identity before ++ givenTo identity after :=
  filter_append ..

section

variable {identity : ActionIdentity} {monitor : ActionCorrelationMonitor}
  {call : Call} {calls : List Call} {pending : PendingAction}

theorem pendingOf_perform (h : Sound monitor) (hother : call.applies ≠ some identity) :
    pendingOf identity (call.perform monitor) =
      (pendingOf identity monitor).filter fun pending => (call.settles pending).isNone := by
  by_cases happlies : call.applies = none
  · rw [pendingOf, actions_perform happlies, pendingOf, filter_comm]
  · cases call with
    | recordApplyIdentity applying applied =>
      have hne : applying ≠ identity := by simpa [Call.applies] using hother
      have hkeep : ∀ pending : PendingAction,
          ((Call.recordApplyIdentity applying applied).settles
            pending).isNone = true := fun _ => rfl
      simp only [hkeep, filter_true]
      by_cases hfull : monitor.isFull
      · rw [perform_apply_full hfull]
        rfl
      · obtain ⟨before, after, window, hpend, hperf⟩ := perform_apply h hfull applying applied
        have happlied : (apply applying applied).identity ≠ identity := hne
        rw [hperf, pendingOf, pendingOf, actions, actions, hpend, filterMap_slot, filterMap_slot]
        simp [happlied]
    | recordTerminalIdentity terminal disposition
    | recordSubmission highest generation submitted
    | terminalizeAllPending disposition => exact absurd rfl happlies

theorem givenTo_settled (monitor : ActionCorrelationMonitor) (call : Call) :
    givenTo identity (monitor.actions.filterMap call.completes) =
      (pendingOf identity monitor).filterMap call.completes := by
  rw [givenTo, pendingOf, filter_filterMap, filterMap_filter]
  refine filterMap_congr fun pending _ => ?_
  by_cases hid : pending.identity = identity
  · cases hsettles : call.settles pending <;>
      simp [Call.completes, hsettles, hid]
  · cases hsettles : call.settles pending <;>
      simp [Call.completes, hsettles, hid]

theorem givenTo_completions (hother : call.applies ≠ some identity) :
    givenTo identity (call.completions monitor) =
      (pendingOf identity monitor).filterMap call.completes := by
  cases call with
  | recordApplyIdentity applying applied =>
    have hne : applying ≠ identity := by simpa [Call.applies] using hother
    have hnone : (pendingOf identity monitor).filterMap
        (Call.recordApplyIdentity applying applied).completes = [] :=
      filterMap_eq_nil_iff.mpr fun _ _ => rfl
    rw [hnone]
    by_cases hfull : monitor.isFull <;>
      simp [Call.completions, hfull, givenTo, hne]
  | recordTerminalIdentity terminal disposition =>
    have hnone : (pendingOf identity monitor).filterMap
        (Call.recordTerminalIdentity terminal disposition).completes = [] :=
      filterMap_eq_nil_iff.mpr fun _ _ => rfl
    rw [hnone]
    simp [Call.completions, givenTo]
  | recordSubmission highest generation submitted
  | terminalizeAllPending disposition => exact givenTo_settled ..

theorem run_unapplied (h : Sound monitor) (hpend : pendingOf identity monitor = [])
    (hcalls : ∀ call ∈ calls, call.applies ≠ some identity) :
    givenTo identity (log monitor calls) = [] ∧ pendingOf identity (run monitor calls) = [] := by
  induction calls generalizing monitor with
  | nil => exact ⟨rfl, hpend⟩
  | cons call calls ih =>
    have hcall := hcalls call (by simp)
    have hstep : pendingOf identity (call.perform monitor) = [] := by
      rw [pendingOf_perform h hcall, hpend, filter_nil]
    obtain ⟨hlog, hrun⟩ := ih (h.perform call) hstep
      fun call hmem => hcalls call (by simp [hmem])
    refine ⟨?_, hrun⟩
    rw [log, givenTo_append, givenTo_completions hcall, hpend, hlog]
    rfl

theorem run_pending (h : Sound monitor) (hpend : pendingOf identity monitor = [pending])
    (hcalls : ∀ call ∈ calls, call.applies ≠ some identity) :
    givenTo identity (log monitor calls) =
        ((calls.findSome? fun call => call.settles pending).toList.map
          fun receipt => ⟨identity, receipt, false⟩) ∧
      pendingOf identity (run monitor calls) =
        if (calls.findSome? fun call => call.settles pending).isNone then [pending]
        else [] := by
  have hid : pending.identity = identity := by
    have hmem : pending ∈ pendingOf identity monitor := by simp [hpend]
    simpa using (mem_filter.mp hmem).2
  induction calls generalizing monitor with
  | nil => exact ⟨rfl, hpend⟩
  | cons call calls ih =>
    have hcall := hcalls call (by simp)
    have hrest : ∀ call ∈ calls, call.applies ≠ some identity :=
      fun call hmem => hcalls call (by simp [hmem])
    have hstep := pendingOf_perform h hcall
    rw [hpend] at hstep
    rw [log, givenTo_append, givenTo_completions hcall, hpend, findSome?_cons, run_cons]
    cases hsettles : call.settles pending with
    | none =>
      obtain ⟨hlog, hrun⟩ := ih (h.perform call) (by simpa [hsettles] using hstep) hrest
      refine ⟨?_, hrun⟩
      simpa [Call.completes, hsettles] using hlog
    | some receipt =>
      obtain ⟨hlog, hrun⟩ := run_unapplied (h.perform call) (by simpa [hsettles] using hstep) hrest
      refine ⟨?_, by simpa using hrun⟩
      simp [Call.completes, hsettles, hlog, hid]

end

theorem Sound.run {monitor : ActionCorrelationMonitor} (h : Sound monitor)
    (calls : List Call) : Sound (run monitor calls) := by
  induction calls generalizing monitor with
  | nil => exact h
  | cons call calls ih => exact ih (h.perform call)

theorem Written.run {monitor : ActionCorrelationMonitor} {receipts : List ActionCorrelationReceipt}
    (hsound : Sound monitor) (h : Written monitor.ledger receipts) (calls : List Call)
    (hbelow : receipts.length + (log monitor calls).length ≤ u64Max) :
    Written (Actions.run monitor calls).ledger
      (receipts ++ (log monitor calls).map Completion.receipt) := by
  induction calls generalizing monitor receipts with
  | nil => simpa [log] using h
  | cons call calls ih =>
    rw [log, length_append] at hbelow
    have hstep := h.foldl ((call.completions monitor).map Completion.receipt) (by simp; omega)
    rw [← perform_ledger hsound] at hstep
    have hrest := ih (hsound.perform call) hstep (by simp; omega)
    rw [run_cons, log, map_append, ← append_assoc]
    exact hrest

def appliedIdentities (calls : List Call) : List ActionIdentity := calls.filterMap Call.applies

variable {before after : List Call} {applied : Instant} {identity : ActionIdentity}

theorem not_applied_around
    (hnd : (appliedIdentities (before ++ .recordApplyIdentity identity applied :: after)).Nodup) :
    (∀ call ∈ before, call.applies ≠ some identity) ∧
      ∀ call ∈ after, call.applies ≠ some identity := by
  have hcons : appliedIdentities (.recordApplyIdentity identity applied :: after) =
      identity :: appliedIdentities after := rfl
  rw [appliedIdentities, filterMap_append, ← appliedIdentities, ← appliedIdentities, hcons] at hnd
  have hnot := nodup_middle.mp hnd
  have hout := (nodup_cons.mp hnot).1
  rw [mem_append, not_or] at hout
  exact ⟨fun call hmem heq => hout.1 (mem_filterMap.mpr ⟨call, hmem, heq⟩),
    fun call hmem heq => hout.2 (mem_filterMap.mpr ⟨call, hmem, heq⟩)⟩

theorem run_applied
    (hnd : (appliedIdentities (before ++ .recordApplyIdentity identity applied :: after)).Nodup) :
    let calls := before ++ .recordApplyIdentity identity applied :: after
    match fate (run .default before) identity applied after with
    | none => givenTo identity (log .default calls) = [] ∧
        pendingOf identity (run .default calls) = [PendingAction.apply identity applied]
    | some receipt => givenTo identity (log .default calls) = [⟨identity, receipt, false⟩] ∧
        pendingOf identity (run .default calls) = [] := by
  intro calls
  obtain ⟨hpre, hafter⟩ := not_applied_around hnd
  obtain ⟨hlog, hnone⟩ := run_unapplied sound_default (pendingOf_default identity) hpre
  have hsound := sound_default.run before
  have hperf := hsound.perform (.recordApplyIdentity identity applied)
  have hgiven : givenTo identity (log .default calls) =
      givenTo identity ((Call.recordApplyIdentity identity applied).completions
        (run .default before)) ++
      givenTo identity (log ((Call.recordApplyIdentity identity applied).perform
        (run .default before)) after) := by
    rw [log_append, givenTo_append, hlog, log, givenTo_append]
    rfl
  have hrun : run .default calls =
      run ((Call.recordApplyIdentity identity applied).perform
        (run .default before)) after := run_append ..
  rw [hgiven, hrun, fate]
  by_cases hfull : (run .default before).isFull
  · have hstep : pendingOf identity
        ((Call.recordApplyIdentity identity applied).perform (run .default before)) = [] := by
      rw [perform_apply_full hfull]
      exact hnone
    obtain ⟨hgivenAfter, hpendingAfter⟩ := run_unapplied hperf hstep hafter
    rw [if_pos hfull, hgivenAfter]
    refine ⟨?_, hpendingAfter⟩
    simp [Call.completions, hfull, givenTo]
  · obtain ⟨first, last, window, hpend, hfilled⟩ := perform_apply hsound hfull identity applied
    have hown : (apply identity applied).identity = identity := rfl
    have hstep : pendingOf identity
        ((Call.recordApplyIdentity identity applied).perform
          (run .default before)) = [apply identity applied] := by
      rw [pendingOf, actions, hpend, filterMap_slot] at hnone
      rw [hfilled, pendingOf, actions, filterMap_slot]
      simp only [toList_none, nil_append, filter_append, append_eq_nil_iff] at hnone
      rw [filter_append, filter_append, hnone.1, hnone.2]
      simp [hown]
    obtain ⟨hgivenAfter, hpendingAfter⟩ := run_pending hperf hstep hafter
    rw [if_neg hfull, hgivenAfter, hpendingAfter]
    cases after.findSome? fun call =>
        call.settles (apply identity applied) with
    | none | some receipt => simp [Call.completions, hfull, givenTo]

section

variable {monitor : ActionCorrelationMonitor} {receipts seen unseen : List ActionCorrelationReceipt}

theorem numbered_fst_le {stored : ℕ × ActionCorrelationReceipt}
    (h : stored ∈ numbered receipts) : stored.1 ≤ receipts.length := by
  obtain ⟨entry, hent, rfl⟩ := mem_map.mp h
  have := snd_lt_add_of_mem_zipIdx hent
  simp only [Prod.fst_swap]
  omega

theorem numbered_pairwise (receipts : List ActionCorrelationReceipt) :
    (numbered receipts).Pairwise fun earlier later => earlier.1 < later.1 := by
  induction receipts using reverseRecOn with
  | nil => exact List.Pairwise.nil
  | append_singleton receipts receipt ih =>
    rw [numbered_concat, pairwise_append]
    refine ⟨ih, pairwise_singleton _ _, ?_⟩
    intro earlier hearl later hlater
    rw [mem_singleton.mp hlater]
    exact lt_succ_of_le (numbered_fst_le hearl)

theorem receiptsAfter_eq (h : Written monitor.ledger receipts) (completionOrdinal : ℕ) :
    monitor.receiptsAfter completionOrdinal =
      ((numbered receipts).drop (receipts.length - actionTimingWindow)).filter
        fun stored => completionOrdinal < stored.1 := by
  have htoList : monitor.storedReceipts =
      ((numbered receipts).drop (receipts.length - actionTimingWindow)).map store := by
    have hread := h.ring.toList_eq actionTimingWindow_pos
    rwa [length_map, numbered_length, ← map_drop] at hread
  rw [receiptsAfter, htoList, List.filter_map, List.map_map]
  exact map_id _

theorem forEachActionReceiptAfter_eq (h : Written monitor.ledger (seen ++ unseen))
    (hunseen : unseen.length ≤ actionTimingWindow) :
    monitor.forEachActionReceiptAfter seen.length = (unseen, seen.length + unseen.length) := by
  have hvisited : monitor.receiptsAfter seen.length =
      (unseen.zipIdx (1 + seen.length)).map Prod.swap := by
    rw [receiptsAfter_eq h, numbered_append,
      drop_append_of_le_length (by simp; omega), filter_append]
    have hold : ((numbered seen).drop
        ((seen ++ unseen).length - actionTimingWindow)).filter
          (fun stored => decide (seen.length < stored.1)) = [] := by
      refine filter_eq_nil_iff.mpr fun stored hstore => ?_
      have := numbered_fst_le (mem_of_mem_drop hstore)
      simp only [decide_eq_true_eq]
      omega
    have hnew : ((unseen.zipIdx (1 + seen.length)).map Prod.swap).filter
        (fun stored => decide (seen.length < stored.1)) =
          (unseen.zipIdx (1 + seen.length)).map Prod.swap := by
      refine filter_eq_self.mpr fun stored hstore => ?_
      obtain ⟨entry, hent, rfl⟩ := mem_map.mp hstore
      have := le_snd_of_mem_zipIdx hent
      simp only [Prod.fst_swap, decide_eq_true_eq]
      omega
    rw [hold, hnew, nil_append]
  have hcur : ∀ (fresh : List ActionCorrelationReceipt) (last : ℕ),
      (((fresh.zipIdx (1 + last)).map Prod.swap).map Prod.fst).foldl max last =
        last + fresh.length := by
    intro fresh
    induction fresh with
    | nil => intro last; rfl
    | cons receipt fresh ih =>
      intro last
      have hnext := ih (1 + last)
      simp only [zipIdx_cons, map_cons, Prod.fst_swap, foldl_cons, length_cons]
      rw [max_eq_right (by omega : last ≤ 1 + last), add_comm (1 + last) 1, hnext]
      omega
  have hreceipts : ((unseen.zipIdx (1 + seen.length)).map Prod.swap).map Prod.snd = unseen := by
    rw [List.map_map]
    exact zipIdx_map_fst _ _
  rw [forEachActionReceiptAfter, hvisited, hcur, hreceipts]

end

/-- What a poller sees that polls after each burst of calls and passes the last
cursor it was given. -/
def poll (monitor : ActionCorrelationMonitor) (cursor : ℕ) :
    List (List Call) → List ActionCorrelationReceipt
  | [] => []
  | burst :: bursts =>
    let visit := (run monitor burst).forEachActionReceiptAfter cursor
    visit.1 ++ poll (run monitor burst) visit.2 bursts

/-- Every burst completes at most as many actions as the ring holds. -/
def PollsInTime (monitor : ActionCorrelationMonitor) : List (List Call) → Prop
  | [] => True
  | burst :: bursts => (log monitor burst).length ≤ actionTimingWindow ∧
      PollsInTime (run monitor burst) bursts

theorem poll_eq {monitor : ActionCorrelationMonitor} {seen : List ActionCorrelationReceipt}
    (hsound : Sound monitor) (h : Written monitor.ledger seen) {bursts : List (List Call)}
    (hpolls : PollsInTime monitor bursts)
    (hbelow : seen.length + (log monitor bursts.flatten).length ≤ u64Max) :
    poll monitor seen.length bursts = (log monitor bursts.flatten).map Completion.receipt := by
  induction bursts generalizing monitor seen with
  | nil => rfl
  | cons burst bursts ih =>
    obtain ⟨hburst, hrest⟩ := hpolls
    rw [flatten_cons, log_append] at hbelow ⊢
    rw [length_append] at hbelow
    have hwrit := h.run hsound burst (by omega)
    have hvisit := forEachActionReceiptAfter_eq hwrit (by simpa using hburst)
    have hlater := ih (hsound.run burst) hwrit hrest (by simp; omega)
    rw [length_append] at hlater
    rw [poll, hvisit, map_append]
    simp only [hlater]

/-- An action and the calls of a short show: it is quantized at its adapter,
applied later, and presented by a submission. -/
def presentedIdentity : ActionIdentity := ⟨⟨1, one_isIdentity⟩, .midi, 0⟩

def shortShow : List Call :=
  [.recordTerminalIdentity presentedIdentity .quantized,
    .recordApplyIdentity presentedIdentity 3000,
    .recordSubmission presentedIdentity.sequence 9 11000]

end CollideOScope.Actions
