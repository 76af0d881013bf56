import CollideOScope.Support.Machine
import Mathlib.Data.Nat.Notation
import Mathlib.Tactic.SplitIfs

/-!
# Library scans

A worker scans the library folder that was requested last and leaves the result
in a slot that the host polls.  It looks whether its scan is still current while
it scans and once more before it writes, but looking and writing are two
actions.  The mailbox stops only with the runtime, when nothing is polled.
-/

namespace CollideOScope.Library

variable {I : Type}

structure LibraryScanCompletion (I : Type) where
  generation : ℕ
  index : I
  deriving DecidableEq

inductive ScanWorker (I : Type)
  | waiting
  | scanning (generation : ℕ)
  /-- Before the final look. -/
  | scanned (generation : ℕ) (result : Option I)
  /-- Before the slot is locked. -/
  | publishing (completion : LibraryScanCompletion I)

structure LibraryIndexRuntime (I : Type) where
  pending : Option ℕ
  currentGeneration : ℕ
  completion : Option (LibraryScanCompletion I)
  /-- A request holds the slot and has still to clear it. -/
  admitting : Bool
  worker : ScanWorker I

/-- An atomic action.  A request submits and then clears the slot. -/
inductive LibraryLabel (I : Type)
  | submit (generation : ℕ)
  | clear | poll | take
  /-- A look during the scan. -/
  | look
  /-- The scan ends, and its enumerator found this. -/
  | finish (index : I)
  | isCurrent | write

namespace LibraryIndexRuntime

def opened : LibraryIndexRuntime I where
  pending := none
  currentGeneration := 0
  completion := none
  admitting := false
  worker := .waiting

def isCurrent (runtime : LibraryIndexRuntime I) (generation : ℕ) : Bool :=
  generation ≠ 0 ∧ runtime.currentGeneration = generation

/-- `request`, up to the submission of the job. -/
def submit (runtime : LibraryIndexRuntime I) (generation : ℕ) : LibraryIndexRuntime I :=
  if generation = 0 then runtime
  else
    { runtime with
      currentGeneration := generation
      pending := some generation
      admitting := true }

def step (runtime : LibraryIndexRuntime I) : LibraryLabel I → Option (LibraryIndexRuntime I)
  | .submit generation => if runtime.admitting then none else some (runtime.submit generation)
  | .clear =>
    if runtime.admitting then some { runtime with completion := none, admitting := false }
    else none
  | .poll =>
    if runtime.admitting then none
    else some { runtime with completion := none }
  | .take =>
    match runtime.worker, runtime.pending with
    | .waiting, some generation =>
      some { runtime with pending := none, worker := .scanning generation }
    | _, _ => none
  | .look =>
    match runtime.worker with
    | .scanning generation =>
      if runtime.isCurrent generation then some runtime
      else some { runtime with worker := .scanned generation none }
    | _ => none
  | .finish index =>
    match runtime.worker with
    | .scanning generation => some { runtime with worker := .scanned generation (some index) }
    | _ => none
  | .isCurrent =>
    match runtime.worker with
    | .scanned generation result =>
      some { runtime with
        worker :=
          match runtime.isCurrent generation, result with
          | true, some index => .publishing ⟨generation, index⟩
          | _, _ => .waiting }
    | _ => none
  | .write =>
    match runtime.worker, runtime.admitting with
    | .publishing completion, false =>
      some { runtime with completion := some completion, worker := .waiting }
    | _, _ => none

def polled (runtime : LibraryIndexRuntime I) :
    List (LibraryLabel I) → Option (List (Option (LibraryScanCompletion I)))
  | [] => some []
  | label :: labels =>
    (runtime.step label).bind fun next =>
      (next.polled labels).map fun rest =>
        match label with
        | .poll => runtime.completion :: rest
        | _ => rest

end LibraryIndexRuntime

open Option List LibraryIndexRuntime

/-- The runtime beside the generation that was accepted last. -/
def library : Machine (LibraryIndexRuntime I × ℕ) (LibraryLabel I) :=
  Machine.observe ⟨fun s => s = opened, step⟩ 0 fun newest _ label _ =>
    match label with
    | .submit generation => if generation = 0 then newest else generation
    | _ => newest

/-- No other generation is requested between the final look and the write. -/
def Settled (s : LibraryIndexRuntime I × ℕ) : LibraryLabel I → Prop
  | .submit generation => ∀ completion, s.1.worker = .publishing completion →
      generation = 0 ∨ generation = completion.generation
  | _ => True

variable {s : LibraryIndexRuntime I × ℕ}

/-- What waits in the slot, or is to be written, is of the newest generation. -/
structure Newest (s : LibraryIndexRuntime I × ℕ) : Prop where
  current : s.1.currentGeneration = s.2
  slot : s.1.admitting = false → ∀ completion,
    s.1.completion = some completion → completion.generation = s.2
  publishing : ∀ completion, s.1.worker = .publishing completion → completion.generation = s.2

theorem Newest.step {t : LibraryIndexRuntime I × ℕ} {label : LibraryLabel I} (h : Newest s)
    (hset : Settled s label) (hstep : library.step s label = some t) : Newest t := by
  obtain ⟨runtime, newest⟩ := s
  obtain ⟨next, accepted⟩ := t
  obtain ⟨hnext, hacc⟩ := Machine.observe_step_eq_some.mp hstep
  obtain ⟨hcur, hslot, hpublishing⟩ := h
  cases label <;> simp only [step] at hnext hacc
  case submit generation =>
      split at hnext <;> cases hnext
      rw [submit, hacc]
      split_ifs with hzero
      · exact ⟨hcur, hslot, hpublishing⟩
      · refine ⟨rfl, nofun, fun completion hworker => ?_⟩
        exact ((hset completion hworker).resolve_left hzero).symm
  all_goals subst hacc
  case clear | poll =>
      split at hnext <;> cases hnext
      exact ⟨hcur, nofun, hpublishing⟩
  case take | finish =>
      split at hnext <;> cases hnext
      exact ⟨hcur, hslot, nofun⟩
  case look =>
      split at hnext
      · split at hnext <;> cases hnext
        · exact ⟨hcur, hslot, hpublishing⟩
        · exact ⟨hcur, hslot, nofun⟩
      · cases hnext
  case isCurrent =>
      split at hnext <;> cases hnext
      rename_i generation result hworker
      refine ⟨hcur, hslot, fun completion hpub => ?_⟩
      dsimp only at hpub
      split at hpub <;> cases hpub
      rename_i hlook
      exact (of_decide_eq_true hlook).2.symm.trans hcur
  case write =>
      split at hnext <;> cases hnext
      rename_i completion hworker hfree
      refine ⟨hcur, fun _ written hwrit => ?_, nofun⟩
      cases hwrit
      exact hpublishing completion hworker

theorem newest_of_reachableBy (h : library.ReachableBy Settled s) : Newest s := by
  refine Machine.ReachableBy.invariant ?_ (fun _ _ _ h => h.step) h
  rintro ⟨runtime, newest⟩ ⟨rfl, rfl⟩
  exact ⟨rfl, nofun, nofun⟩

/-- Of the polls of a run the first returns the result and the others
nothing. -/
def ReturnedOnce (result : Option (LibraryScanCompletion I))
    (replies : List (Option (LibraryScanCompletion I))) : Prop :=
  replies = [] ∨ ∃ n, replies = result :: replicate n none

theorem polled_of_waiting {runtime : LibraryIndexRuntime I} {labels : List (LibraryLabel I)}
    {replies : List (Option (LibraryScanCompletion I))}
    (hpolled : runtime.polled labels = some replies) (hworker : runtime.worker = .waiting)
    (hpend : runtime.pending = none) (hadmitting : runtime.admitting = false)
    (hlabels : ∀ generation, .submit generation ∉ labels) :
    ReturnedOnce runtime.completion replies := by
  induction labels generalizing runtime replies with
  | nil => exact .inl (Option.some.inj hpolled).symm
  | cons label labels ih =>
    obtain ⟨next, hnext, hmap⟩ := bind_eq_some_iff.mp hpolled
    obtain ⟨rest, hrest, hreplies⟩ := map_eq_some_iff.mp hmap
    cases label with
    | submit generation => exact absurd mem_cons_self (hlabels generation)
    | poll =>
      simp [step, hadmitting] at hnext
      subst hnext hreplies
      right
      rcases ih hrest hworker hpend rfl fun generation h =>
        hlabels generation (.tail _ h) with rfl | ⟨n, rfl⟩
      · exact ⟨0, rfl⟩
      · exact ⟨n + 1, rfl⟩
    | _ => simp [step, hworker, hpend, hadmitting] at hnext

/-- While no other generation is requested between the final look and the
write, a poll returns nothing or a scan of the newest accepted generation, and
when the newest scan is written the polls until the next request return it
once. -/
theorem only_newest_scan_delivered (h : library.ReachableBy Settled s) :
    (s.1.admitting = false → ∀ completion,
        s.1.completion = some completion → completion.generation = s.2) ∧
      ∀ completion t labels replies, s.1.worker = .publishing completion →
        s.1.pending = none → s.1.step .write = some t →
          (∀ generation, .submit generation ∉ labels) → t.polled labels = some replies →
            ReturnedOnce (some completion) replies := by
  refine ⟨(newest_of_reachableBy h).slot, ?_⟩
  intro completion t labels replies hworker hpending hwrite hlabels hpolled
  simp only [step, hworker] at hwrite
  split at hwrite <;> cases hwrite
  rename_i hcompletion hadmitting
  cases hcompletion
  exact polled_of_waiting hpolled rfl hpending hadmitting hlabels

theorem only_newest_scan_delivered_first :
    ReturnedOnce (some (⟨1, ()⟩ : LibraryScanCompletion Unit)) [some ⟨1, ()⟩, none] := by
  have hopened : (library (I := Unit)).ReachableBy Settled (opened, 0) :=
    ⟨(opened, 0), ⟨rfl, rfl⟩, .refl _⟩
  have hsubmitted := hopened.tail (e := LibraryLabel.submit 1) nofun rfl
  have hscanned := ((hsubmitted.tail (e := LibraryLabel.clear) trivial rfl).tail
    (e := LibraryLabel.take) trivial rfl).tail (e := LibraryLabel.finish ()) trivial
      rfl
  have hpublishing := hscanned.tail (e := LibraryLabel.isCurrent) trivial rfl
  exact (only_newest_scan_delivered hpublishing).2 _ _ [.poll, .poll] _ rfl
    rfl rfl (by simp) rfl

/-- A generation is requested before the scan of an older one is written, and
the poll after it returns the older one. -/
theorem superseded_scan_polled :
    (library.exec (opened, 0)
      [.submit 1, .clear, .take, .finish (), .isCurrent,
        .submit 2, .clear, .write]).map (fun s => (s.1.admitting, s.1.completion, s.2)) =
      some (false, some ⟨1, ()⟩, 2) := rfl

end CollideOScope.Library
