import Mathlib.Data.List.Perm.Subperm
import CollideOScope.Support.Checks
import CollideOScope.Video.Retirement

/-!
# The reaper joins every thread once

The reaper takes the handles of retired workers that have finished, joins them
one by one and removes their records.  With it every step of the supervision
keeps the stages of the workers.
-/

namespace CollideOScope.Video

open Nat Table List Option SupervisorState

variable {workerId : ℕ}

theorem SupervisorState.mem_collect {state : SupervisorState}
    {finished : JoinHandle → Bool} {handle : JoinHandle} :
    (workerId, handle) ∈ (state.collect finished).2 ↔
      ∃ record, state.records.find workerId = some record ∧
        ready finished record ∧ record.handle = some handle := by
  simp only [collect, mem_filterMap]
  constructor
  · rintro ⟨⟨other, record⟩, hmem, hready⟩
    split_ifs at hready with hguard
    obtain ⟨found, hfound, heq⟩ := map_eq_some_iff.mp hready
    cases heq
    exact ⟨record, find_of_mem hmem, hguard, hfound⟩
  · rintro ⟨record, hfind, hguard, hhand⟩
    refine ⟨(workerId, record), mem_of_find hfind, ?_⟩
    simp [hguard, hhand]

theorem SupervisorState.collect_nodup (state : SupervisorState) (finished : JoinHandle → Bool) :
    ((state.collect finished).2.map Prod.fst).Nodup := by
  refine List.Nodup.sublist ?_ state.records.nodup
  simp only [collect]
  induction state.records.entries with
  | nil => exact List.Sublist.slnil
  | cons entry entries ih =>
    simp only [filterMap_cons]
    split
    · exact ih.trans (sublist_cons_self _ _)
    · rename_i found hfound
      split_ifs at hfound
      obtain ⟨handle, -, rfl⟩ := map_eq_some_iff.mp hfound
      simp only [map_cons]
      exact ih.cons_cons entry.1

namespace Supervised

variable {config : SupervisorConfig} {s : Supervision}

open SupervisorState (mem_collect ready)

theorem collect (h : Supervised config s) (hready : s.ready = []) :
    Supervised config { s with
      state := (s.state.collect s.isFinished).1
      ready := (s.state.collect s.isFinished).2 } := by
  have hfind : ∀ workerId,
      (s.state.collect s.isFinished).1.records.find workerId =
        (s.state.records.find workerId).map fun record =>
          if ready s.isFinished record then { record with handle := none }
          else record := by
    intro workerId
    simp only [SupervisorState.collect, find_mapValues]
  have hhand : ∀ workerId record handle,
      s.state.records.find workerId = some record →
        record.handle = some handle →
          ∃ token thread, token.isSettled ∧ thread ≠ .unspawned ∧
            handle = ⟨workerId⟩ ∧ s.view workerId =
              ⟨token, thread, some (some ⟨workerId⟩), false, false, false⟩ := by
    intro workerId record handle hrec hsome
    apply (h.stage workerId).of_handle
    simp [Supervision.view, hrec, hsome]
  refine { h with
    bounded := ?_, stage := ?_, readyNodup := ?_, readyHandle := ?_,
    cancelled := ?_ }
  · exact (size_mapValues _ _).trans_le h.bounded
  · intro workerId
    cases hrec : s.state.records.find workerId with
    | none =>
      refine (h.stage workerId).congr ?_
      have hnot : ∀ entry ∈ (s.state.collect s.isFinished).2, entry.1 ≠ workerId := by
        rintro ⟨other, handle⟩ hent rfl
        obtain ⟨record, hother, -⟩ := mem_collect.mp hent
        rw [hrec] at hother
        cases hother
      simp only [Supervision.view, hfind, hrec, hready, map_none,
        any_nil, WorkerView.mk.injEq, true_and, and_true]
      rw [List.any_eq_false]
      intro entry hent
      simpa using hnot entry hent
    | some record =>
      by_cases hguard : ready s.isFinished record
      · have hguard' := hguard
        simp only [ready, Bool.and_eq_true, Option.any_eq_true] at hguard'
        obtain ⟨-, handle, hsome, hfinished⟩ := hguard'
        obtain ⟨token, thread, htok, hthr, rfl, hview⟩ := hhand workerId record handle hrec hsome
        have hpanicked : ∃ panicked, thread = .finished panicked := by
          have hsame := congrArg WorkerView.thread hview
          simp only [Supervision.view] at hsame
          simp only [Supervision.isFinished, hsame] at hfinished
          cases thread with
          | finished panicked => exact ⟨panicked, rfl⟩
          | unspawned | running => cases hfinished
        obtain ⟨panicked, rfl⟩ := hpanicked
        refine (WorkerStage.ready htok panicked).congr ?_
        simp only [Supervision.view, WorkerView.mk.injEq] at hview ⊢
        simp only [hfind, hrec, map_some, hguard, if_true]
        refine ⟨hview.1, hview.2.1, trivial, ?_, hview.2.2.2.2⟩
        rw [List.any_eq_true]
        exact ⟨_, mem_collect.mpr ⟨record, hrec, hguard, hsome⟩, by simp⟩
      · refine (h.stage workerId).congr ?_
        simp only [Supervision.view, hfind, hrec, map_some, hguard, hready, any_nil,
          WorkerView.mk.injEq, true_and, and_true]
        refine ⟨by simp, ?_⟩
        rw [List.any_eq_false]
        rintro ⟨other, handle⟩ hent
        simp only [decide_eq_true_eq]
        rintro rfl
        obtain ⟨found, hother, hfound, -⟩ := mem_collect.mp hent
        rw [hrec] at hother
        cases hother
        exact hguard hfound
  · exact s.state.collect_nodup s.isFinished
  · rintro ⟨workerId, handle⟩ hent
    obtain ⟨record, hrec, -, hsome⟩ := mem_collect.mp hent
    obtain ⟨-, -, -, -, hsame, -⟩ := hhand workerId record handle hrec hsome
    exact hsame
  · intro workerId found hother hretired
    rw [hfind] at hother
    obtain ⟨record, hrec, rfl⟩ := map_eq_some_iff.mp hother
    have hcanc := h.cancelled workerId record hrec
    split_ifs at hretired ⊢
    · exact hcanc hretired
    · exact hcanc hretired

variable {panicked : Bool} {workerId : ℕ}

section

variable (h : Supervised config s)
include h

theorem join {handle : JoinHandle} {ready : List (ℕ × JoinHandle)} (hjoining : s.joining = none)
    (hready : s.ready = (workerId, handle) :: ready)
    (hthr : s.threads handle.worker = .finished panicked) :
    Supervised config { s with
      ready
      joining := some (workerId, panicked)
      joined := s.joined ++ [(workerId, panicked)] } := by
  have hhead : handle = ⟨workerId⟩ :=
    h.readyHandle (workerId, handle) (by rw [hready]; exact mem_cons_self)
  subst hhead
  obtain ⟨token, finished, htok, hview⟩ :=
    (h.stage workerId).of_ready (by simp [Supervision.view, hready])
  have hnd := h.readyNodup
  rw [hready, map_cons, nodup_cons] at hnd
  have hfresh : workerId ∉ s.joined.map Prod.fst := by
    have hjoin := congrArg WorkerView.joined hview
    simp only [Supervision.view, List.any_eq_false, decide_eq_true_eq] at hjoin
    intro hmem
    obtain ⟨entry, hent, heq⟩ := mem_map.mp hmem
    exact hjoin entry hent heq
  refine { h with
    stage := ?_, readyNodup := hnd.2, readyHandle := ?_, joinedNodup := ?_,
    joinedThread := ?_, joining := ?_, completed := ?_, panicked := ?_ }
  · intro other
    by_cases hother : other = workerId
    · subst hother
      refine (WorkerStage.joining htok panicked).congr ?_
      simp only [Supervision.view, WorkerView.mk.injEq] at hview ⊢
      refine ⟨hview.1, hthr, hview.2.2.1, ?_, by simp, by simp⟩
      rw [List.any_eq_false]
      intro entry hent
      simp only [decide_eq_true_eq]
      rintro rfl
      exact hnd.1 (mem_map.mpr ⟨entry, hent, rfl⟩)
    · refine (h.stage other).congr ?_
      have hne : workerId ≠ other := fun heq => hother heq.symm
      simp [Supervision.view, hready, hjoining, hne]
  · intro entry hent
    apply h.readyHandle
    rw [hready]
    exact mem_cons_of_mem _ hent
  · rw [map_append]
    exact Checks.nodup_concat h.joinedNodup hfresh
  · intro entry hent
    obtain hold | hnew := mem_append.mp hent
    · exact h.joinedThread entry hold
    · cases mem_singleton.mp hnew
      exact hthr
  · intro entry hent
    cases hent
    exact mem_append_right _ (mem_singleton_self _)
  · have hcomp := h.completed
    simp only [hjoining, isSome_none, Bool.toNat_false, add_zero] at hcomp
    simp [hcomp]
  · have hpanicked := h.panicked
    simp only [hjoining, any_none, Bool.toNat_false, add_zero] at hpanicked
    simp only [hpanicked, any_some, countP_append, countP_singleton]
    cases panicked <;> rfl

theorem joined_length_le : s.joined.length ≤ s.state.nextWorkerId := by
  have hsub : s.joined.map Prod.fst ⊆ range' 1 s.state.nextWorkerId := by
    intro workerId hmem
    obtain ⟨entry, hent, rfl⟩ := mem_map.mp hmem
    have hset : (s.tokens entry.1).isSettled :=
      (h.stage entry.1).of_joined (by
        simp only [Supervision.view, List.any_eq_true]
        exact ⟨entry, hent, by simp⟩)
    have hadm := h.admitted entry.1 (by
      intro habs
      rw [habs] at hset
      cases hset)
    rw [mem_range'_1]
    omega
  have hle := (subperm_of_subset h.joinedNodup hsub).length_le
  simpa using hle

theorem remove (hjoining : s.joining = some (workerId, panicked)) :
    Supervised config { s with
      state := s.state.remove workerId panicked
      joining := none } := by
  obtain ⟨token, finished, htok, hview⟩ :=
    (h.stage workerId).of_joining (by simp [Supervision.view, hjoining])
  have hhand := congrArg WorkerView.handle hview
  obtain ⟨record, hrec, -⟩ := map_eq_some_iff.mp hhand
  have hcomp := h.completed
  have hpanicked := h.panicked
  have hlen := h.joined_length_le.trans h.nextWorkerId
  have hcnt := countP_le_length (p := Prod.snd) (l := s.joined)
  simp only [hjoining, isSome_some, Bool.toNat_true, any_some]
    at hcomp hpanicked
  have hcompletedNext : saturatingAddU64 s.state.completedWorkers 1 =
      s.state.completedWorkers + 1 := saturatingAddU64_of_le (by omega)
  have hpanickedNext : saturatingAddU64 s.state.panickedWorkers panicked.toNat =
      s.state.panickedWorkers + panicked.toNat :=
    saturatingAddU64_of_le (by omega)
  simp only [SupervisorState.remove, hrec, hcompletedNext, hpanickedNext]
  refine { h with
    bounded := ?_, stage := ?_, joining := by simp, completed := hcomp,
    panicked := hpanicked, cancelled := ?_ }
  · exact (size_erase_le _ _).trans h.bounded
  · intro other
    by_cases hother : other = workerId
    · subst hother
      refine (WorkerStage.removed htok finished).congr ?_
      simp only [Supervision.view, WorkerView.mk.injEq] at hview ⊢
      refine ⟨hview.1, hview.2.1, by simp, hview.2.2.2.1, rfl, hview.2.2.2.2.2⟩
    · refine (h.stage other).congr ?_
      have hne : workerId ≠ other := fun heq => hother heq.symm
      simp [Supervision.view, hother, hjoining, hne]
  · intro other found hfind hretired
    simp only [find_erase] at hfind
    split_ifs at hfind
    exact h.cancelled other found hfind hretired

theorem step {t : Supervision} {label : SupervisionLabel}
    (hstep : s.step config label = some t) : Supervised config t := by
  cases label with simp only [Supervision.step] at hstep
  | admitWorker source cancel mailbox =>
    obtain ⟨refusal, -, hadm⟩ | ⟨hrefusal, ⟨error, hadm⟩ |
        ⟨hlt, peak, hadm⟩⟩ :=
      s.state.admit_cases config source cancel mailbox
    · rw [hadm] at hstep
      cases hstep
      exact h.refuse _
    · rw [hadm] at hstep
      cases hstep
      exact h
    · rw [hadm] at hstep
      cases hstep
      obtain ⟨hacc, hbdd, -⟩ := s.state.refusal_eq_none.mp hrefusal
      exact h.reserve hacc hbdd hlt _ rfl rfl peak
  | spawn workerId =>
    split_ifs at hstep with htok
    cases hstep
    exact h.spawn htok
  | attach workerId =>
    split_ifs at hstep with htok
    cases hstep
    exact h.attach htok
  | abandon workerId =>
    split_ifs at hstep with htok
    cases hstep
    exact h.abandon htok
  | retire workerId sourceGeneration =>
    split_ifs at hstep with htok
    cases hstep
    exact h.retire htok sourceGeneration
  | beginDrain =>
    cases hstep
    exact h.beginDrain
  | endDrain =>
    split_ifs at hstep with hdrain
    cases hstep
    exact h.endDrain hdrain
  | exit workerId panicked =>
    split_ifs at hstep with hthr
    cases hstep
    exact h.exit hthr panicked
  | use workerId use =>
    cases hstep
    exact h.use workerId use
  | collect =>
    split_ifs at hstep with hidle
    cases hstep
    exact h.collect hidle.1
  | join =>
    split at hstep
    · rename_i workerId handle ready hjoining hready
      split at hstep
      · rename_i panicked hthr
        cases hstep
        exact h.join hjoining hready hthr
      · cases hstep
    · cases hstep
  | remove =>
    split at hstep
    · rename_i workerId panicked hjoining
      cases hstep
      exact h.remove hjoining
    · cases hstep

end

theorem opened : Supervised config .opened where
  failure := rfl
  bounded := zero_le _
  stage _ := .absent
  admitted _ h := absurd rfl h
  nextWorkerId := zero_le _
  readyNodup := nodup_nil
  readyHandle _ h := nomatch h
  joinedNodup := nodup_nil
  joinedThread _ h := nomatch h
  joining _ h := nomatch h
  completed := rfl
  panicked := rfl
  cancelled _ _ h := nomatch h
  draining h := absurd h (lt_irrefl 0)

theorem of_reachable (h : (retirementMachine config).Reachable s) : Supervised config s := by
  apply h.invariant
  · rintro _ rfl
    exact opened
  · intro s label t hs hstep
    exact hs.step hstep

end Supervised

variable {t : Supervision} {label : SupervisionLabel} {config : SupervisorConfig} {s : Supervision}

open Supervision (expect)

theorem removed_cases (h : Supervised config s) (hstep : s.step config label = some t)
    {record : WorkerRecord} (hfind : s.state.records.find workerId = some record)
    (hgone : t.state.records.find workerId = none) :
    label = .abandon workerId ∧ s.threads workerId = .unspawned ∨
      label = .remove ∧ ∃ panicked,
        s.threads workerId = .finished panicked ∧ s.joining = some (workerId, panicked) := by
  cases label with simp only [Supervision.step] at hstep
  | admitWorker source cancel mailbox =>
    obtain ⟨refusal, -, hadm⟩ | ⟨-, ⟨error, hadm⟩ | ⟨-, peak, hadm⟩⟩ :=
      s.state.admit_cases config source cancel mailbox
    · rw [hadm] at hstep
      cases hstep
      simp [hfind] at hgone
    · rw [hadm] at hstep
      cases hstep
      simp [hfind] at hgone
    · rw [hadm] at hstep
      cases hstep
      simp only [find_insert, hfind] at hgone
      split_ifs at hgone
  | spawn other | exit other panicked =>
    split_ifs at hstep
    cases hstep
    simp [hfind] at hgone
  | attach other =>
    split_ifs at hstep
    cases hstep
    simp only [SupervisorState.attach] at hgone
    split at hgone
    · simp [expect, hfind] at hgone
    · split_ifs at hgone
      · simp [expect, hfind] at hgone
      · simp only [expect, find_adjust, hfind, map_some] at hgone
        split_ifs at hgone
  | abandon other =>
    split_ifs at hstep with htok
    cases hstep
    have hview := (h.stage other).of_reserved htok
    have hthr := congrArg WorkerView.thread hview
    left
    by_cases hother : workerId = other
    · exact ⟨by rw [hother], by rw [hother]; exact hthr⟩
    · simp only [abandon] at hgone
      split at hgone
      · simp [expect, hfind] at hgone
      · split_ifs at hgone
        · simp [expect, hfind] at hgone
        · simp [expect, hfind, hother] at hgone
  | retire other sourceGeneration =>
    split_ifs at hstep
    cases hstep
    simp only [retireWorker_find, hfind, map_some] at hgone
    split_ifs at hgone
  | beginDrain =>
    cases hstep
    simp [beginDrain, updateRetirementPeak, hfind] at hgone
  | endDrain =>
    split_ifs at hstep
    cases hstep
    simp only [endDrain] at hgone
    split_ifs at hgone
    · simp [hfind] at hgone
    · simp [updateRetirementPeak, hfind] at hgone
  | use other use =>
    cases hstep
    simp only [find_adjust, hfind, map_some] at hgone
    split_ifs at hgone
  | collect =>
    split_ifs at hstep
    cases hstep
    simp [collect, hfind] at hgone
  | join =>
    split at hstep
    · split at hstep
      · cases hstep
        simp [hfind] at hgone
      · cases hstep
    · cases hstep
  | remove =>
    split at hstep
    · rename_i other panicked hjoining
      cases hstep
      have hthr := h.joinedThread _ (h.joining _ hjoining)
      simp only [remove] at hgone
      split at hgone
      · simp [hfind] at hgone
      · simp only [find_erase] at hgone
        split_ifs at hgone with hother
        · subst hother
          exact .inr ⟨rfl, panicked, hthr, hjoining⟩
        · rw [hfind] at hgone
          cases hgone
    · cases hstep

theorem admit_refused
    (h : config.churnCap ≤ s.state.retiringCount ∨
      s.state.acceptingNewWorkers = false) {source : DecoderSourceFingerprint}
    {cancel : Bool} {mailbox : DecodeCommandMailbox}
    (hstep : s.step config (.admitWorker source cancel mailbox) = some t) :
    (∃ refusal, (s.state.admitWorker config source cancel mailbox).2 = .error refusal) ∧
      t = { s with
        state := { s.state with
          admissionRefusals := saturatingAddU64 s.state.admissionRefusals 1 } } := by
  simp only [Supervision.step] at hstep
  obtain ⟨refusal, -, hadm⟩ | ⟨hrefusal, -⟩ := s.state.admit_cases config source cancel mailbox
  · rw [hadm] at hstep ⊢
    cases hstep
    exact ⟨⟨refusal, rfl⟩, rfl⟩
  · obtain ⟨hacc, -, hchurn⟩ := s.state.refusal_eq_none.mp hrefusal
    obtain hbacklog | hnot := h
    · omega
    · rw [hacc] at hnot
      cases hnot

theorem step_accepting
    (hstep : s.step config label = some t) (h : s.state.acceptingNewWorkers = false) :
    t.state.acceptingNewWorkers = false := by
  cases label with simp only [Supervision.step] at hstep
  | admitWorker source cancel mailbox =>
    obtain ⟨-, rfl⟩ := admit_refused (.inr h) hstep
    exact h
  | attach workerId =>
    split_ifs at hstep
    cases hstep
    simp only [SupervisorState.attach]
    split
    · exact h
    · split_ifs
      · exact h
      · exact h
  | abandon workerId =>
    split_ifs at hstep
    cases hstep
    simp only [abandon]
    split
    · exact h
    · split_ifs
      · exact h
      · exact h
  | retire workerId sourceGeneration =>
    split_ifs at hstep
    cases hstep
    exact (s.state.retireWorker_rest workerId sourceGeneration).2.2.2.2.trans h
  | beginDrain =>
    cases hstep
    rfl
  | endDrain =>
    split_ifs at hstep
    cases hstep
    simp only [endDrain]
    split_ifs
    · exact h
    · exact h
  | join =>
    split at hstep
    · split at hstep
      · cases hstep
        exact h
      · cases hstep
    · cases hstep
  | remove =>
    split at hstep
    · cases hstep
      simp only [remove]
      split
      · exact h
      · exact h
    · cases hstep
  | spawn workerId | exit workerId panicked | collect =>
    split_ifs at hstep
    cases hstep
    exact h
  | use workerId use =>
    cases hstep
    exact h

/-- What the supervisor does with decoder threads. -/
structure Retires (config : SupervisorConfig) (s : Supervision) : Prop where
  /-- No expectation has failed. -/
  failure : s.failure = none
  bounded : s.state.records.size ≤ config.hardCap
  /-- A thread that has not been joined has a record. -/
  owned : ∀ workerId, s.threads workerId ≠ .unspawned →
    workerId ∉ s.joined.map Prod.fst → (s.state.records.find workerId).isSome
  /-- The record of a worker without a thread goes when it is abandoned, and
  that of a spawned one when its finished thread has been joined. -/
  removed : ∀ label t workerId record, s.step config label = some t →
    s.state.records.find workerId = some record →
      t.state.records.find workerId = none →
        label = .abandon workerId ∧ s.threads workerId = .unspawned ∨
          label = .remove ∧ ∃ panicked,
            s.threads workerId = .finished panicked ∧ s.joining = some (workerId, panicked)
  /-- No thread is joined twice. -/
  once : (s.joined.map Prod.fst).Nodup
  joined : ∀ entry ∈ s.joined, s.threads entry.1 = .finished entry.2
  /-- The joined workers are counted, but for one whose record is about to be
  removed. -/
  completed : s.state.completedWorkers + s.joining.isSome.toNat = s.joined.length
  panicked : s.state.panickedWorkers + (s.joining.any Prod.snd).toNat = s.joined.countP Prod.snd
  /-- An admission is refused while the backlog is full or after a drain, and
  the refusal is counted and changes nothing else. -/
  refused : config.churnCap ≤ s.state.retiringCount ∨ s.state.acceptingNewWorkers = false →
    ∀ source cancel mailbox t,
      s.step config (.admitWorker source cancel mailbox) = some t →
        (∃ refusal, (s.state.admitWorker config source cancel mailbox).2 = .error refusal) ∧
          t = { s with
            state := { s.state with
              admissionRefusals := saturatingAddU64 s.state.admissionRefusals 1 } }
  drained : ∀ t, s.step config .beginDrain = some t →
    ∀ u, (retirementMachine config).FreeRun t u → u.state.acceptingNewWorkers = false
  cancelled : ∀ workerId record,
    s.state.records.find workerId = some record →
      record.lifecycle.isRetired → record.cancel ∧ record.mailbox.state.stopped

/-- The supervisor owns every decoder thread, bounds their number and joins each
of them once. -/
theorem supervisor_retires {config : SupervisorConfig} {s : Supervision}
    (h : (retirementMachine config).Reachable s) : Retires config s := by
  have hs := Supervised.of_reachable h
  refine ⟨hs.failure, hs.bounded, ?_, ?_, hs.joinedNodup, hs.joinedThread,
    hs.completed, hs.panicked, ?_, ?_, ?_⟩
  · intro workerId hthread hjoined
    have hview : (s.view workerId).joined = false := by
      simp only [Supervision.view, List.any_eq_false, decide_eq_true_eq]
      intro entry hentry heq
      exact hjoined (mem_map.mpr ⟨entry, hentry, heq⟩)
    have hhandle := (hs.stage workerId).of_unjoined hthread hview
    simpa [Supervision.view] using hhandle
  · intro label t workerId record hstep hfind hgone
    exact removed_cases hs hstep hfind hgone
  · intro hfull source cancel mailbox t hstep
    exact admit_refused hfull hstep
  · intro t hdrain u hrun
    apply hrun.preserves (P := fun u => u.state.acceptingNewWorkers = false)
    · intro v label w hv _ hstep
      exact step_accepting hstep hv
    · cases hdrain
      rfl
  · intro workerId record hfind hretired
    exact hs.cancelled workerId record hfind (.inl hretired)

/-- A worker is admitted, exits and is joined while two drains overlap. -/
def sampleRetirement : List SupervisionLabel :=
  [.admitWorker (Vector.replicate 16 0) false .new, .spawn 1, .beginDrain, .exit 1 false, .attach 1,
    .beginDrain, .collect, .endDrain, .retire 1 3, .join]

theorem supervisor_retires_sampleRetirement :
    ∃ s, (retirementMachine .production).exec .opened sampleRetirement = some s ∧
      s.joined = [(1, false)] ∧ Retires .production s :=
  ⟨_, rfl, rfl, supervisor_retires (Machine.reachable_of_exec rfl
    (rfl : (retirementMachine .production).exec .opened sampleRetirement = some _))⟩

/-- Between the join of a thread and the removal of its record the worker is
joined and not counted. -/
theorem joined_not_completed :
    ¬∀ (config : SupervisorConfig) (s : Supervision),
      (retirementMachine config).Reachable s → s.state.completedWorkers = s.joined.length := by
  intro h
  have hrun : (retirementMachine .production).exec .opened sampleRetirement = some _ := rfl
  exact absurd (h _ _ (Machine.reachable_of_exec rfl hrun)) (by decide)

end CollideOScope.Video
