import Mathlib.Data.List.Perm.Basic
import CollideOScope.Web.Queue

/-!
# What the browser queue keeps

Over every sequence of calls each enqueued action is queued, drained or ended
exactly once, the actions keep their order, and every ending is explained by
the queue it was decided on.  Two values of one destination can stand behind
the last command only after a command between them was taken out of the queue.
-/

namespace CollideOScope.Web

open Function Nat Actions List Option Prod ActionQueue

namespace ActionQueue

section

variable {T : Type} [QueuedWebAction T] {queue left : List T} {action : T}
  {report : EnqueueReport T}

section

variable (h : Admitted queue action report left)
include h

theorem Admitted.perm : Perm (queue ++ [action]) (left ++ report.terminal.toList.map fst) := by
  cases h with
  | rescan kind prior new pending old | refuse ordinary full fresh
  | push room fresh => simp
  | seek target front prior found new old =>
    subst found
    simpa using (Perm.swap action prior []).append_left front
  | value key front prior rest found new old behind
  | evict front prior rest found position priority full first fresh =>
    subst found
    simpa using (perm_append_singleton prior (rest ++ [action])).symm.append_left front

theorem Admitted.sublist : Sublist left (queue ++ [action]) := by
  cases h with
  | rescan kind prior new pending old | refuse ordinary full fresh => exact sublist_append_left ..
  | seek target front prior found new old
  | value key front prior rest found new old behind
  | evict front prior rest found position priority full first fresh =>
    subst found
    simp
  | push room fresh => exact Sublist.refl _

theorem Admitted.length_le (hqueue : queue.length ≤ maxPendingActions) :
    left.length ≤ maxPendingActions := by
  cases h with
  | rescan kind prior new pending old | refuse ordinary full fresh => exact hqueue
  | seek target front prior found new old =>
    subst found
    simpa using hqueue
  | value key front prior rest found new old behind
  | evict front prior rest found position priority full first fresh =>
    subst found
    simpa [add_assoc] using hqueue
  | push room fresh =>
    rw [length_append, length_singleton]
    exact room

end

/-- Why an enqueue ended an action: the queue it found and the queue it left
show the reason. -/
inductive Ended (queue : List T) (action : T) (left : List T) : T → ActionDisposition → Prop
  | rescan (kind : WebCommand) (prior : T)
      (new : (webAction action).rescan = some kind) (pending : prior ∈ queue)
      (old : (webAction prior).rescan = some kind) :
      Ended queue action left action .coalesced
  | seek (target : String × ℕ) (front : List T) (prior : T)
      (found : queue = front ++ [prior]) (leaves : left = front ++ [action])
      (new : (webAction action).seekTarget = some target)
      (old : (webAction prior).seekTarget = some target) :
      Ended queue action left prior .coalesced
  | value (key : String) (front : List T) (prior : T)
      (rest : List T) (found : queue = front ++ prior :: rest)
      (leaves : left = front ++ rest ++ [action])
      (new : (webAction action).coalesceKey = some key)
      (old : (webAction prior).coalesceKey = some key)
      (behind : ∀ later ∈ rest, (webAction later).coalesceKey ≠ none) :
      Ended queue action left prior .coalesced
  | refused (ordinary : (webAction action).isPriority = false) :
      Ended queue action left action .refused
  | evicted (prior : T) (pending : prior ∈ queue)
      (first : (webAction prior).isPriority →
        queue.length = maxPendingActions ∧ ∀ other ∈ queue, (webAction other).isPriority) :
      Ended queue action left prior .superseded

theorem Admitted.ended (h : Admitted queue action report left)
    (hqueue : queue.length ≤ maxPendingActions) {terminal : T} {disposition : ActionDisposition}
    (hterm : report.terminal = some (terminal, disposition)) :
    Ended queue action left terminal disposition := by
  cases h with
  | rescan kind prior new pending old =>
    cases hterm
    exact .rescan kind prior new pending old
  | seek target front prior found new old =>
    cases hterm
    exact .seek target front _ found rfl new old
  | value key front prior rest found new old behind =>
    cases hterm
    refine .value key front _ rest found rfl new old fun later hlater => ?_
    exact isSome_iff_ne_none.mp (behind later hlater)
  | evict front prior rest found position priority full first fresh =>
    cases hterm
    refine .evicted _ (by simp [found]) fun hprior => ?_
    exact ⟨le_antisymm hqueue full, (first hprior).2⟩
  | refuse ordinary full fresh =>
    cases hterm
    exact .refused ordinary
  | push room fresh => cases hterm

end

section

variable {queue : List Queued} {action : Queued}

theorem retain_cons_of_keep {keep : ℕ → WebAction → Bool} {call : ℕ}
    (h : keep call action.payload) :
    (retain keep call (action :: queue)).1 = action :: (retain keep (call + 1) queue).1 := by
  simp [retain, h]

variable (keep : ℕ → WebAction → Bool) (call : ℕ)

theorem retain_sublist (queue : List Queued) : Sublist (retain keep call queue).1 queue := by
  induction queue generalizing call with
  | nil => exact Sublist.refl []
  | cons action queue ih =>
    rw [retain]
    cases keep call action.payload with
    | true => exact (ih (call + 1)).cons_cons action
    | false => exact (ih (call + 1)).cons action

theorem retain_perm (queue : List Queued) :
    Perm queue ((retain keep call queue).1 ++ (retain keep call queue).2) := by
  induction queue generalizing call with
  | nil => exact Perm.refl []
  | cons action queue ih =>
    rw [retain]
    cases keep call action.payload with
    | true => exact (ih (call + 1)).cons action
    | false => exact ((ih (call + 1)).cons action).trans perm_middle.symm

theorem retain_append (front rest : List Queued) :
    (retain keep call (front ++ rest)).1 =
      (retain keep call front).1 ++ (retain keep (call + front.length) rest).1 := by
  induction front generalizing call with
  | nil => simp [retain]
  | cons action front ih =>
    have hcall : call + (front.length + 1) = call + 1 + front.length := by omega
    rw [cons_append, retain, retain, length_cons, hcall]
    cases keep call action.payload <;> simp [ih]

end

end ActionQueue

namespace BrowserQueue

/-- Every enqueued action is queued, drained or ended exactly once, in order,
within the bound. -/
structure Conserved (state : BrowserQueue) : Prop where
  once : Perm state.enqueued (state.drained ++ (state.queue ++ state.terminated.map fst))
  order : Sublist (state.drained ++ state.queue) state.enqueued
  bounded : state.queue.length ≤ maxPendingActions

theorem conserved_empty : Conserved empty where
  once := Perm.refl []
  order := Sublist.refl []
  bounded := zero_le _

open ActionQueue

theorem Conserved.perform {state : BrowserQueue} (h : Conserved state)
    (call : QueueCall) : Conserved (state.perform call) := by
  obtain ⟨honce, hord, hbdd⟩ := h
  cases call with
  | enqueueGuardedActionWithAck action =>
    have hadm := admitted state.queue action
    refine ⟨?_, ?_, hadm.length_le hbdd⟩
    · have hperm := (honce.append_right [action]).trans
        (Perm.of_eq (by simp) : Perm _
          (state.drained ++ (state.queue ++ (state.terminated.map fst ++ [action]))))
      refine hperm.trans (Perm.append_left _ ?_)
      have hswap : Perm (state.queue ++ (state.terminated.map fst ++ [action]))
          ((state.queue ++ [action]) ++ state.terminated.map fst) := by
        rw [append_assoc]
        exact Perm.append_left _ perm_append_comm
      refine hswap.trans ((hadm.perm.append_right _).trans ?_)
      simp only [BrowserQueue.perform, map_append, append_assoc]
      exact List.Perm.append_left _ perm_append_comm
    · refine (hadm.sublist.append_left state.drained).trans ?_
      rw [← append_assoc]
      exact hord.append_right [action]
  | retainPendingActions keep =>
    have hsub := retain_sublist keep 0 state.queue
    refine ⟨?_, ?_, hsub.length_le.trans hbdd⟩
    · refine honce.trans (Perm.append_left _ ?_)
      refine ((retain_perm keep 0 state.queue).append_right _).trans ?_
      have hfst : ∀ removed : List Queued,
          (removed.map (·, ActionDisposition.superseded)).map fst = removed := by
        intro removed
        simp [comp_def]
      simp only [BrowserQueue.perform, map_append, hfst, append_assoc]
      exact List.Perm.append_left _ perm_append_comm
    · exact (hsub.append_left state.drained).trans hord
  | supersedeAllPendingActions =>
    refine ⟨?_, ?_, zero_le _⟩
    · refine honce.trans (Perm.append_left _ ?_)
      simpa [BrowserQueue.perform, comp_def] using perm_append_comm
    · simpa [BrowserQueue.perform] using (sublist_append_left state.drained state.queue).trans hord
  | drain =>
    refine ⟨?_, ?_, zero_le _⟩
    · simpa [BrowserQueue.perform] using honce
    · simpa [BrowserQueue.perform] using hord

theorem after_append_singleton (calls : List QueueCall) (call : QueueCall) :
    after (calls ++ [call]) = (after calls).perform call := by
  simp [after]

theorem conserved_after (calls : List QueueCall) : Conserved (after calls) := by
  induction calls using reverseRecOn with
  | nil => exact conserved_empty
  | append_singleton calls call ih =>
    rw [after_append_singleton]
    exact ih.perform call

def EndedByEnqueue (calls : List QueueCall) (ended : Queued × ActionDisposition) : Prop :=
  ∃ before action later,
    calls = before ++ .enqueueGuardedActionWithAck action :: later ∧
    Ended (after before).queue action (enqueueBoundedDetailed (after before).queue action).2
      ended.1 ended.2

variable {calls : List QueueCall}

theorem EndedByEnqueue.append {ended : Queued × ActionDisposition}
    (h : EndedByEnqueue calls ended) (more : List QueueCall) :
    EndedByEnqueue (calls ++ more) ended := by
  obtain ⟨before, action, later, rfl, hend⟩ := h
  exact ⟨before, action, later ++ more, by simp, hend⟩

theorem terminated_explained (calls : List QueueCall) :
    ∀ ended ∈ (after calls).terminated, EndedByEnqueue calls ended ∨
      ended.2 = .superseded ∧ ∃ before call later,
        calls = before ++ call :: later ∧ ended.1 ∈ (after before).queue ∧
          ((∃ keep, call = .retainPendingActions keep) ∨ call = .supersedeAllPendingActions) := by
  induction calls using reverseRecOn with
  | nil => simp [after, empty]
  | append_singleton calls call ih =>
    intro ended hmem
    rw [after_append_singleton] at hmem
    have hold : ended ∈ (after calls).terminated →
        EndedByEnqueue (calls ++ [call]) ended ∨
          ended.2 = .superseded ∧ ∃ before call' later,
            calls ++ [call] = before ++ call' :: later ∧
              ended.1 ∈ (after before).queue ∧
              ((∃ keep, call' = .retainPendingActions keep) ∨
                call' = .supersedeAllPendingActions) := by
      intro hend
      rcases ih ended hend with henqueue | ⟨hdisposition, before, call', later, rfl, hqueue, hcall⟩
      · exact .inl (henqueue.append [call])
      · exact .inr ⟨hdisposition, before, call', later ++ [call], by simp, hqueue, hcall⟩
    cases call with
    | enqueueGuardedActionWithAck action =>
      rcases mem_append.mp hmem with hend | hend
      · exact hold hend
      · obtain ⟨terminal, disposition⟩ := ended
        refine .inl ⟨calls, action, [], rfl, ?_⟩
        exact (admitted _ action).ended (conserved_after calls).bounded (mem_toList.mp hend)
    | retainPendingActions keep =>
      rcases mem_append.mp hmem with hend | hend
      · exact hold hend
      · obtain ⟨removed, hrem, rfl⟩ := mem_map.mp hend
        refine .inr ⟨rfl, calls, _, [], rfl, ?_, .inl ⟨keep, rfl⟩⟩
        exact (retain_perm keep 0 _).symm.subset (mem_append_right _ hrem)
    | supersedeAllPendingActions =>
      rcases mem_append.mp hmem with hend | hend
      · exact hold hend
      · obtain ⟨removed, hrem, rfl⟩ := mem_map.mp hend
        exact .inr ⟨rfl, calls, _, [], rfl, hrem, .inr rfl⟩
    | drain => exact hold hmem

/-- At most one value of each destination stands behind the last command. -/
def OnePerDestination (queue : List Queued) : Prop :=
  ((queue.rtakeWhile isKeyed).map
    fun action => action.payload.coalesceKey).Nodup

/-- The position of the last command without a destination. -/
def lastCommand (queue : List Queued) : Option ℕ :=
  rposition (fun candidate => !isKeyed candidate) queue

/-- The call takes the last command out of a queue that stays in order: a full
queue evicts it, or it is not retained. -/
def takesLastCommand (queue : List Queued) : QueueCall → Bool
  | .enqueueGuardedActionWithAck action =>
    action.payload.isPriority && maxPendingActions ≤ queue.length && !absorbs queue action &&
      lastCommand queue = some (evictionPosition queue)
  | .retainPendingActions keep =>
    match lastCommand queue with
    | none => false
    | some position => (queue[position]?).any fun command => !keep position command.payload
  | _ => false

/-- No call of the run takes the last command out of the queue. -/
def KeepsCommands (calls : List QueueCall) : Prop :=
  ∀ before call later, calls = before ++ call :: later →
    takesLastCommand (after before).queue call = false

section

variable {queue front rest : List Queued} {action prior : Queued}

theorem OnePerDestination.sublist {left : List Queued}
    (h : OnePerDestination queue)
    (hsub : Sublist (left.rtakeWhile isKeyed)
      (queue.rtakeWhile isKeyed)) : OnePerDestination left :=
  Nodup.sublist (hsub.map _) h

theorem onePerDestination_concat_command (h : ¬ isKeyed action) :
    OnePerDestination (queue ++ [action]) := by
  rw [OnePerDestination, rtakeWhile_concat_neg _ _ _ h]
  exact nodup_nil

theorem OnePerDestination.concat_value (h : OnePerDestination queue)
    (hkeyed : isKeyed action)
    (hfresh : ∀ candidate ∈ queue.rtakeWhile isKeyed,
      candidate.payload.coalesceKey ≠ action.payload.coalesceKey) :
    OnePerDestination (queue ++ [action]) := by
  rw [OnePerDestination, rtakeWhile_concat_pos _ _ _ hkeyed, map_append, map_singleton]
  refine Nodup.append h (nodup_singleton _) ?_
  rintro key hmem hsame
  obtain ⟨candidate, hcand, rfl⟩ := mem_map.mp hmem
  exact hfresh candidate hcand (mem_singleton.mp hsame)

theorem fresh_of_not_absorbed (hfresh : absorbs queue action = false) (hkeyed : isKeyed action) :
    ∀ candidate ∈ queue.rtakeWhile isKeyed,
      candidate.payload.coalesceKey ≠ action.payload.coalesceKey := by
  obtain ⟨key, hkey⟩ : ∃ key, action.payload.coalesceKey = some key := isSome_iff_exists.mp hkeyed
  have hnone : keyedPrior queue action = none := by
    simp only [absorbs, Bool.or_eq_false_iff, isSome_eq_false_iff, isNone_iff_eq_none] at hfresh
    exact hfresh.2
  rw [hkey]
  exact keyedPrior_eq_none hkey hnone

theorem rtakeWhile_remove (h : lastCommand (front ++ prior :: rest) ≠ some front.length) :
    Sublist ((front ++ rest).rtakeWhile isKeyed) ((front ++ prior :: rest).rtakeWhile isKeyed) := by
  by_cases hrest : ∃ command ∈ rest, ¬ isKeyed command
  · have hsplit : front ++ prior :: rest = (front ++ [prior]) ++ rest := by simp
    rw [rtakeWhile_append_of_exists hrest, hsplit, rtakeWhile_append_of_exists hrest]
  · have hall : ∀ later ∈ rest, isKeyed later := by
      intro later hlater
      by_contra hcmd
      exact hrest ⟨later, hlater, hcmd⟩
    have hprior : isKeyed prior := by
      by_contra hcmd
      refine h (rposition_append_cons (by simpa using hcmd) ?_)
      intro later hlater
      simp [hall later hlater]
    have hboth : ∀ later ∈ prior :: rest, isKeyed later := by
      intro later hlater
      rcases mem_cons.mp hlater with rfl | hlater
      · exact hprior
      · exact hall later hlater
    rw [rtakeWhile_append_of_forall hall, rtakeWhile_append_of_forall hboth]
    exact (sublist_cons_self prior rest).append_left _

theorem OnePerDestination.perform {state : BrowserQueue} (h : OnePerDestination state.queue)
    {call : QueueCall} (hcall : takesLastCommand state.queue call = false) :
    OnePerDestination (state.perform call).queue := by
  cases call with
  | enqueueGuardedActionWithAck action =>
    have hadm := admitted state.queue action
    simp only [BrowserQueue.perform]
    revert hadm
    generalize (enqueueBoundedDetailed state.queue action).1 = report
    generalize (enqueueBoundedDetailed state.queue action).2 = left
    intro hadm
    cases hadm with
    | rescan kind prior new pending old | refuse ordinary full fresh => exact h
    | seek target front prior found new old =>
      rw [webAction_queued] at new
      refine onePerDestination_concat_command ?_
      simp [isKeyed, WebAction.coalesceKey_of_seekTarget new]
    | value key front prior rest found new old behind =>
      rw [webAction_queued] at new old
      have hprior : isKeyed prior := by simp [isKeyed, old]
      have haction : isKeyed action := by simp [isKeyed, new]
      have hboth : ∀ later ∈ prior :: rest, isKeyed later := by simpa [hprior] using behind
      rw [OnePerDestination, found, rtakeWhile_append_of_forall hboth] at h
      rw [OnePerDestination, rtakeWhile_concat_pos _ _ _ haction,
        rtakeWhile_append_of_forall behind]
      refine (Perm.nodup_iff ?_).mp h
      simp only [map_append, map_cons, map_nil, new, old, append_assoc]
      exact (perm_append_singleton (some key) _).symm.append_left _
    | evict front prior rest found position priority full first fresh =>
      rw [webAction_queued] at priority
      have hlast : lastCommand state.queue ≠ some front.length := by
        intro hlast
        simp [takesLastCommand, priority, full, fresh, hlast, position] at hcall
      have hsub : Sublist ((front ++ rest).rtakeWhile isKeyed)
          (state.queue.rtakeWhile isKeyed) := by
        rw [found] at hlast ⊢
        exact rtakeWhile_remove hlast
      by_cases hkeyed : isKeyed action
      · refine (h.sublist hsub).concat_value hkeyed ?_
        intro candidate hcand
        exact fresh_of_not_absorbed fresh hkeyed candidate (hsub.subset hcand)
      · exact onePerDestination_concat_command hkeyed
    | push room fresh =>
      by_cases hkeyed : isKeyed action
      · exact h.concat_value hkeyed (fresh_of_not_absorbed fresh hkeyed)
      · exact onePerDestination_concat_command hkeyed
  | retainPendingActions keep =>
    simp only [BrowserQueue.perform]
    refine h.sublist ?_
    cases hlast : lastCommand state.queue with
    | none =>
      have hall : ∀ action ∈ state.queue, isKeyed action := by
        intro action hmem
        simpa using rposition_eq_none_iff.mp hlast action hmem
      rw [rtakeWhile_eq_self_iff.mpr hall]
      exact (rtakeWhile_suffix _ _).sublist.trans (retain_sublist keep 0 state.queue)
    | some position =>
      obtain ⟨front, command, rest, hqueue, hpos, hcmd, hrest⟩ := rposition_eq_some hlast
      have hget : state.queue[position]? = some command := by
        rw [hqueue, ← hpos, getElem?_append_cons]
      have hkeep : keep front.length command.payload = true := by
        simp only [takesLastCommand, hlast, hget, any_some] at hcall
        simpa [hpos] using hcall
      have hbehind : ∀ later ∈ rest, isKeyed later :=
        fun later hlater => by simpa using hrest later hlater
      have hsub := retain_sublist keep (front.length + 1) rest
      have hret : ∀ later ∈ (retain keep (front.length + 1) rest).1, isKeyed later :=
        fun later hlater => hbehind later (hsub.subset hlater)
      have hcommand' : ¬ isKeyed command := by simpa using hcmd
      rw [hqueue, retain_append, zero_add, retain_cons_of_keep hkeep,
        rtakeWhile_append_cons hcommand' hret, rtakeWhile_append_cons hcommand' hbehind]
      exact hsub
  | supersedeAllPendingActions | drain => exact nodup_nil

end

theorem KeepsCommands.onePerDestination (h : KeepsCommands calls) :
    OnePerDestination (after calls).queue := by
  induction calls using reverseRecOn with
  | nil => exact nodup_nil
  | append_singleton calls call ih =>
    have hpre : KeepsCommands calls := by
      rintro before call' later rfl
      exact h before call' (later ++ [call]) (by simp)
    rw [after_append_singleton]
    exact (ih hpre).perform (h calls call [] rfl)

/-- **The browser action queue loses nothing silently and never reorders.** -/
theorem browser_queue_conserves (calls : List QueueCall) :
    let state := after calls
    state.queue.length ≤ maxPendingActions ∧
      Perm state.enqueued (state.drained ++ (state.queue ++ state.terminated.map fst)) ∧
      Sublist (state.drained ++ state.queue) state.enqueued ∧
      (∀ ended ∈ state.terminated, EndedByEnqueue calls ended ∨
        ended.2 = .superseded ∧ ∃ before call later,
          calls = before ++ call :: later ∧ ended.1 ∈ (after before).queue ∧
            ((∃ keep, call = .retainPendingActions keep) ∨ call = .supersedeAllPendingActions)) ∧
      (∀ ended ∈ state.terminated, ended.2 = .refused → ended.1.payload.isPriority = false) ∧
      (KeepsCommands calls → OnePerDestination state.queue) := by
  intro state
  obtain ⟨honce, horder, hbounded⟩ := conserved_after calls
  have hexplained := terminated_explained calls
  refine ⟨hbounded, honce, horder, hexplained, ?_, KeepsCommands.onePerDestination⟩
  rintro ⟨terminal, disposition⟩ hmem rfl
  rcases hexplained _ hmem with hended | ⟨hdisposition, -⟩
  · obtain ⟨before, action, later, -, hended⟩ := hended
    cases hended with
    | refused ordinary => exact ordinary
  · cases hdisposition

def lookIdentity (sequence : ℕ) : ActionIdentity :=
  ⟨⟨min (sequence + 1) u64Max, by unfold u64Max; omega, by omega⟩, .browser, sequence⟩

/-- A macro is set, the master is rerolled and the macro is set again; the host
then applies a look, which does not retain the reroll. -/
def lookCalls : List QueueCall :=
  [.enqueueGuardedActionWithAck ⟨lookIdentity 0, .setMacro 0⟩,
    .enqueueGuardedActionWithAck ⟨lookIdentity 1, .command .reroll⟩,
    .enqueueGuardedActionWithAck ⟨lookIdentity 2, .setMacro 0⟩,
    .retainPendingActions fun _ action => action.coalesceKey.isSome]

/-- Two values of one destination stand behind the last command when the
command between them was not retained. -/
theorem two_values_of_one_destination :
    (after lookCalls).queue.length = 2 ∧ ¬ OnePerDestination (after lookCalls).queue := by
  unfold OnePerDestination
  decide +kernel

end BrowserQueue

end CollideOScope.Web
