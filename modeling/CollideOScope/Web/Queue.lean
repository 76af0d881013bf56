import CollideOScope.Support.LastPosition
import CollideOScope.Web.Action

/-!
# The browser action queue

One bounded vector holds the actions the browsers sent until the host drains
it.  Admission applies four rules in sequence: a pending rescan absorbs a later
one, a seek replaces the seek it directly follows, a value replaces the pending
value of its destination and moves to the tail unless a command without a
destination stands between, and commands with a reservation evict an ordinary
action from a full queue.
-/

namespace CollideOScope.Web

open Option Actions List

/-- What stands in a queue of browser actions. -/
class QueuedWebAction (T : Type) where
  webAction : T → WebAction

export QueuedWebAction (webAction)

/-- An action with the identity it was minted with at ingress. -/
abbrev Queued := ActionEnvelope WebAction

instance : QueuedWebAction Queued := ⟨ActionEnvelope.payload⟩

@[simp] theorem webAction_queued (action : Queued) : webAction action = action.payload := rfl

def maxPendingActions : ℕ := 512

def priorityActionReserve : ℕ := 32

inductive EnqueueOutcome
  | added | coalesced | dropped
  deriving DecidableEq

/-- The outcome and the action the call ended, if any. -/
structure EnqueueReport (T : Type) where
  outcome : EnqueueOutcome
  terminal : Option (T × ActionDisposition)

namespace ActionQueue

section

variable {T : Type} [QueuedWebAction T]

def rescanPending (queue : List T) (action : T) : Bool :=
  match (webAction action).rescan with
  | none => false
  | some kind => queue.any fun candidate => (webAction candidate).rescan = some kind

/-- The final seek that a seek of the same slot replaces. -/
def seekPrior (queue : List T) (action : T) : Option T :=
  match (webAction action).seekTarget with
  | none => none
  | some target => queue.getLast?.filter fun candidate =>
    (webAction candidate).seekTarget = some target

def isKeyed (action : T) : Bool := (webAction action).coalesceKey.isSome

/-- The position after the last command without a destination. -/
def barrier (queue : List T) : ℕ :=
  (rposition (fun candidate => !isKeyed candidate) queue).elim 0 (· + 1)

/-- The position of the pending value that a value of its destination
replaces. -/
def keyedPrior (queue : List T) (action : T) : Option ℕ :=
  match (webAction action).coalesceKey with
  | none => none
  | some key =>
    (rposition (fun candidate => (webAction candidate).coalesceKey = some key)
      (queue.drop (barrier queue))).map (barrier queue + ·)

/-- The action that a full queue evicts: the first ordinary one, else the
first. -/
def evictionPosition (queue : List T) : ℕ :=
  (queue.findIdx? fun candidate => !(webAction candidate).isPriority).getD 0

/-- Admission once no pending action absorbs the new one. -/
def admitFresh (queue : List T) (action : T) : EnqueueReport T × List T :=
  if (webAction action).isPriority then
    if queue.length ≥ maxPendingActions then
      (⟨.added, queue[evictionPosition queue]?.map (·, .superseded)⟩,
        queue.eraseIdx (evictionPosition queue) ++ [action])
    else (⟨.added, none⟩, queue ++ [action])
  else if queue.length ≥ maxPendingActions - priorityActionReserve then
    (⟨.dropped, some (action, .refused)⟩, queue)
  else (⟨.added, none⟩, queue ++ [action])

def enqueueBoundedDetailed (queue : List T) (action : T) : EnqueueReport T × List T :=
  if rescanPending queue action then (⟨.coalesced, some (action, .coalesced)⟩, queue)
  else
    match seekPrior queue action with
    | some prior => (⟨.coalesced, some (prior, .coalesced)⟩, queue.dropLast ++ [action])
    | none =>
      match keyedPrior queue action with
      | some position =>
        (⟨.coalesced, queue[position]?.map (·, .coalesced)⟩, queue.eraseIdx position ++ [action])
      | none => admitFresh queue action

def absorbs (queue : List T) (action : T) : Bool :=
  rescanPending queue action || (seekPrior queue action).isSome ||
    (keyedPrior queue action).isSome

end

/-- The loop of `retain_pending_actions`: the retained actions and the others,
for a closure that may answer differently at every call. -/
def retain (keep : ℕ → WebAction → Bool) : ℕ → List Queued → List Queued × List Queued
  | _, [] => ([], [])
  | call, action :: queue =>
    let (retained, removed) := retain keep (call + 1) queue
    if keep call action.payload then (action :: retained, removed)
    else (retained, action :: removed)

end ActionQueue

inductive QueueCall
  | enqueueGuardedActionWithAck (action : Queued)
  | retainPendingActions (keep : ℕ → WebAction → Bool)
  | supersedeAllPendingActions | drain

structure BrowserQueue where
  (queue enqueued drained : List Queued)
  terminated : List (Queued × ActionDisposition)

namespace BrowserQueue

def empty : BrowserQueue := ⟨[], [], [], []⟩

def perform (state : BrowserQueue) : QueueCall → BrowserQueue
  | .enqueueGuardedActionWithAck action =>
    let (report, queue) := ActionQueue.enqueueBoundedDetailed state.queue action
    { state with
      queue
      enqueued := state.enqueued ++ [action]
      terminated := state.terminated ++ report.terminal.toList }
  | .retainPendingActions keep =>
    let (retained, removed) := ActionQueue.retain keep 0 state.queue
    { state with
      queue := retained
      terminated := state.terminated ++ removed.map (·, .superseded) }
  | .supersedeAllPendingActions =>
    { state with
      queue := []
      terminated := state.terminated ++ state.queue.map (·, .superseded) }
  | .drain => { state with queue := [], drained := state.drained ++ state.queue }

def after (calls : List QueueCall) : BrowserQueue := calls.foldl perform empty

end BrowserQueue

namespace ActionQueue

variable {T : Type} [QueuedWebAction T] {queue : List T} {action : T}

/-- The cases of admission, each with the queue it finds and leaves. -/
inductive Admitted (queue : List T) (action : T) : EnqueueReport T → List T → Prop
  | rescan (kind : WebCommand) (prior : T)
      (new : (webAction action).rescan = some kind) (pending : prior ∈ queue)
      (old : (webAction prior).rescan = some kind) :
      Admitted queue action ⟨.coalesced, some (action, .coalesced)⟩ queue
  | seek (target : String × ℕ) (front : List T) (prior : T)
      (found : queue = front ++ [prior])
      (new : (webAction action).seekTarget = some target)
      (old : (webAction prior).seekTarget = some target) :
      Admitted queue action ⟨.coalesced, some (prior, .coalesced)⟩ (front ++ [action])
  | value (key : String) (front : List T) (prior : T)
      (rest : List T) (found : queue = front ++ prior :: rest)
      (new : (webAction action).coalesceKey = some key)
      (old : (webAction prior).coalesceKey = some key)
      (behind : ∀ later ∈ rest, isKeyed later) :
      Admitted queue action ⟨.coalesced, some (prior, .coalesced)⟩ (front ++ rest ++ [action])
  | evict (front : List T) (prior : T) (rest : List T)
      (found : queue = front ++ prior :: rest)
      (position : evictionPosition queue = front.length)
      (priority : (webAction action).isPriority)
      (full : maxPendingActions ≤ queue.length)
      (first : (webAction prior).isPriority →
        front = [] ∧ ∀ other ∈ queue, (webAction other).isPriority)
      (fresh : absorbs queue action = false) :
      Admitted queue action ⟨.added, some (prior, .superseded)⟩ (front ++ rest ++ [action])
  | refuse (ordinary : (webAction action).isPriority = false)
      (full : maxPendingActions - priorityActionReserve ≤ queue.length)
      (fresh : absorbs queue action = false) :
      Admitted queue action ⟨.dropped, some (action, .refused)⟩ queue
  | push (room : queue.length < maxPendingActions)
      (fresh : absorbs queue action = false) :
      Admitted queue action ⟨.added, none⟩ (queue ++ [action])

variable {α : Type}

theorem eraseIdx_append_cons (front rest : List α) (a : α) :
    (front ++ a :: rest).eraseIdx front.length = front ++ rest := by
  rw [eraseIdx_append_of_length_le le_rfl, Nat.sub_self, eraseIdx_cons_zero]

theorem getElem?_append_cons (front rest : List α) (a : α) :
    (front ++ a :: rest)[front.length]? = some a := by
  rw [getElem?_append_right le_rfl, Nat.sub_self]
  rfl

theorem rescanPending_iff :
    rescanPending queue action ↔ ∃ kind prior,
      (webAction action).rescan = some kind ∧ prior ∈ queue ∧
        (webAction prior).rescan = some kind := by
  unfold rescanPending
  cases (webAction action).rescan with
  | none | some kind => simp

theorem seekPrior_eq_some {prior : T} (h : seekPrior queue action = some prior) :
    ∃ target front, queue = front ++ [prior] ∧
      (webAction action).seekTarget = some target ∧
      (webAction prior).seekTarget = some target := by
  unfold seekPrior at h
  cases htgt : (webAction action).seekTarget with
  | none => simp [htgt] at h
  | some target =>
    rw [htgt] at h
    obtain ⟨hlast, hprior⟩ := filter_eq_some_iff.mp h
    obtain ⟨front, rfl⟩ := getLast?_eq_some_iff.mp hlast
    exact ⟨target, front, rfl, rfl, by simpa using hprior⟩

theorem drop_barrier (queue : List T) : queue.drop (barrier queue) = queue.rtakeWhile isKeyed :=
  drop_rposition isKeyed queue

theorem keyedPrior_eq_some {position : ℕ} (h : keyedPrior queue action = some position) :
    ∃ key front prior rest, queue = front ++ prior :: rest ∧
      front.length = position ∧ (webAction action).coalesceKey = some key ∧
      (webAction prior).coalesceKey = some key ∧
      ∀ later ∈ rest, isKeyed later := by
  unfold keyedPrior at h
  cases hkey : (webAction action).coalesceKey with
  | none => simp [hkey] at h
  | some key =>
    rw [hkey] at h
    obtain ⟨offset, hoff, rfl⟩ := map_eq_some_iff.mp h
    obtain ⟨middle, prior, rest, hbehind, rfl, hprior, -⟩ := rposition_eq_some hoff
    have hle : barrier queue ≤ queue.length := by
      by_contra hlt
      rw [drop_eq_nil_of_le (by omega)] at hbehind
      simp at hbehind
    refine ⟨key, queue.take (barrier queue) ++ middle, prior, rest, ?_, ?_,
      rfl, by simpa using hprior, ?_⟩
    · rw [append_assoc, ← hbehind, take_append_drop]
    · rw [length_append, length_take, Nat.min_eq_left hle]
    · intro later hlater
      rw [drop_barrier] at hbehind
      refine mem_rtakeWhile_imp (l := queue) ?_
      rw [hbehind]
      simp [hlater]

theorem keyedPrior_eq_none {key : String} (hkey : (webAction action).coalesceKey = some key)
    (h : keyedPrior queue action = none) :
    ∀ candidate ∈ queue.rtakeWhile isKeyed, (webAction candidate).coalesceKey ≠ some key := by
  rw [keyedPrior, hkey, map_eq_none_iff, drop_barrier] at h
  intro candidate hmem
  simpa using rposition_eq_none_iff.mp h candidate hmem

theorem evictionPosition_spec (h : queue ≠ []) :
    ∃ front prior rest, queue = front ++ prior :: rest ∧
      evictionPosition queue = front.length ∧
      ((webAction prior).isPriority →
        front = [] ∧ ∀ other ∈ queue, (webAction other).isPriority) := by
  unfold evictionPosition
  cases hfind : queue.findIdx?
      fun candidate => !(webAction candidate).isPriority with
  | none =>
    have hall : ∀ other ∈ queue, (webAction other).isPriority := by
      intro other hother
      simpa using findIdx?_eq_none_iff.mp hfind other hother
    obtain ⟨prior, rest, rfl⟩ := exists_cons_of_ne_nil h
    exact ⟨[], prior, rest, rfl, rfl, fun _ => ⟨rfl, hall⟩⟩
  | some position =>
    obtain ⟨hlt, hordinary, -⟩ := findIdx?_eq_some_iff_getElem.mp hfind
    refine ⟨queue.take position, queue[position], queue.drop (position + 1), ?_, ?_, ?_⟩
    · rw [← drop_eq_getElem_cons hlt, take_append_drop]
    · rw [length_take, Nat.min_eq_left hlt.le, getD_some]
    · intro hprio
      simp [hprio] at hordinary

theorem admitted (queue : List T) (action : T) :
    Admitted queue action (enqueueBoundedDetailed queue action).1
      (enqueueBoundedDetailed queue action).2 := by
  unfold enqueueBoundedDetailed
  by_cases hrescan : rescanPending queue action
  · rw [if_pos hrescan]
    obtain ⟨kind, prior, hnew, hmem, hold⟩ := rescanPending_iff.mp hrescan
    exact .rescan kind prior hnew hmem hold
  · rw [if_neg hrescan]
    cases hseek : seekPrior queue action with
    | some prior =>
      obtain ⟨target, front, rfl, hnew, hold⟩ := seekPrior_eq_some hseek
      simpa using Admitted.seek target front prior rfl hnew hold
    | none =>
      cases hkeyed : keyedPrior queue action with
      | some position =>
        obtain ⟨key, front, prior, rest, rfl, rfl, hnew, hold, hbehind⟩ := keyedPrior_eq_some hkeyed
        simpa [eraseIdx_append_cons, getElem?_append_cons] using
          Admitted.value key front prior rest rfl hnew hold hbehind
      | none =>
        have hfresh : absorbs queue action = false := by simp [absorbs, hseek, hkeyed, hrescan]
        simp only [admitFresh]
        by_cases hprio : (webAction action).isPriority
        · rw [if_pos hprio]
          by_cases hfull : queue.length ≥ maxPendingActions
          · rw [if_pos hfull]
            have hne : queue ≠ [] := by
              rintro rfl
              simp [maxPendingActions] at hfull
            obtain ⟨front, prior, rest, hfound, hpos, hfst⟩ := evictionPosition_spec hne
            have herase : queue.eraseIdx (evictionPosition queue) = front ++ rest := by
              rw [hpos, hfound, eraseIdx_append_cons]
            have hget : queue[evictionPosition queue]? = some prior := by
              rw [hpos, hfound, getElem?_append_cons]
            rw [herase, hget]
            exact .evict front prior rest hfound hpos hprio hfull hfst hfresh
          · rw [if_neg hfull]
            exact .push (Nat.lt_of_not_le hfull) hfresh
        · rw [if_neg hprio]
          by_cases hfull : queue.length ≥ maxPendingActions - priorityActionReserve
          · rw [if_pos hfull]
            exact .refuse (by simpa using hprio) hfull hfresh
          · rw [if_neg hfull]
            exact .push (by
              simp only [maxPendingActions, priorityActionReserve] at *
              omega) hfresh

end ActionQueue

end CollideOScope.Web
