import CollideOScope.Video.Supervisor

/-!
# Every decoder thread is owned

A worker passes through few stages: its record holds its handle once, the
reaper takes the handle once, and the record goes when the thread has been
joined.
-/

namespace CollideOScope.Video

open Table DecodeCommandMailbox Option Function WorkerRecord SupervisorState

structure WorkerView where
  token : TokenPhase
  thread : ThreadPhase
  /-- The handle of the record, if there is a record. -/
  handle : Option (Option JoinHandle)
  (ready joining joined : Bool)

def Supervision.view (s : Supervision) (workerId : ℕ) : WorkerView where
  token := s.tokens workerId
  thread := s.threads workerId
  handle := (s.state.records.find workerId).map WorkerRecord.handle
  ready := s.ready.any fun entry => entry.1 = workerId
  joining := s.joining.any fun entry => entry.1 = workerId
  joined := s.joined.any fun entry => entry.1 = workerId

def TokenPhase.isSettled : TokenPhase → Bool
  | .attached | .gone => true
  | _ => false

inductive WorkerStage (workerId : ℕ) : WorkerView → Prop
  | absent : WorkerStage workerId
      ⟨.absent, .unspawned, none, false, false, false⟩
  | reserved : WorkerStage workerId
      ⟨.reserved, .unspawned, some none, false, false, false⟩
  /-- The token was dropped before a thread was spawned. -/
  | dropped : WorkerStage workerId
      ⟨.gone, .unspawned, some none, false, false, false⟩
  | abandoned : WorkerStage workerId
      ⟨.gone, .unspawned, none, false, false, false⟩
  | spawned {thread : ThreadPhase} (hthread : thread ≠ .unspawned) :
      WorkerStage workerId ⟨.spawned, thread, some none, false, false, false⟩
  | held {token : TokenPhase} {thread : ThreadPhase}
      (htoken : token.isSettled) (hthread : thread ≠ .unspawned) :
      WorkerStage workerId ⟨token, thread, some (some ⟨workerId⟩), false, false, false⟩
  | ready {token : TokenPhase} (htoken : token.isSettled) (panicked : Bool) :
      WorkerStage workerId ⟨token, .finished panicked, some none, true, false, false⟩
  | joining {token : TokenPhase} (htoken : token.isSettled) (panicked : Bool) :
      WorkerStage workerId ⟨token, .finished panicked, some none, false, true, true⟩
  | removed {token : TokenPhase} (htoken : token.isSettled) (panicked : Bool) :
      WorkerStage workerId ⟨token, .finished panicked, none, false, false, true⟩

namespace WorkerStage

variable {workerId : ℕ} {view : WorkerView} (h : WorkerStage workerId view)
include h

theorem of_absent (htok : view.token = .absent) :
    view = ⟨.absent, .unspawned, none, false, false, false⟩ := by
  cases h <;> first | rfl | simp_all [TokenPhase.isSettled]

theorem of_reserved (htok : view.token = .reserved) :
    view = ⟨.reserved, .unspawned, some none, false, false, false⟩ := by
  cases h <;> first | rfl | simp_all [TokenPhase.isSettled]

theorem of_spawned (htok : view.token = .spawned) :
    ∃ thread, thread ≠ .unspawned ∧ view = ⟨.spawned, thread, some none, false, false, false⟩ := by
  cases h <;> first | exact ⟨_, ‹_›, rfl⟩ | simp_all [TokenPhase.isSettled]

theorem of_ready (hready : view.ready) :
    ∃ token panicked, token.isSettled ∧
      view = ⟨token, .finished panicked, some none, true, false, false⟩ := by
  cases h <;> first | exact ⟨_, _, ‹_›, rfl⟩ | simp_all

theorem of_joining (hjoining : view.joining) :
    ∃ token panicked, token.isSettled ∧
      view = ⟨token, .finished panicked, some none, false, true, true⟩ := by
  cases h <;> first | exact ⟨_, _, ‹_›, rfl⟩ | simp_all

theorem of_joined (hjoin : view.joined) : view.token.isSettled := by
  cases h <;> simp_all

theorem of_unjoined (hthr : view.thread ≠ .unspawned)
    (hjoin : view.joined = false) : view.handle.isSome := by
  cases h <;> simp_all

theorem of_handle {handle : JoinHandle} (hhand : view.handle = some (some handle)) :
    ∃ token thread, token.isSettled ∧ thread ≠ .unspawned ∧
      handle = ⟨workerId⟩ ∧
      view = ⟨token, thread, some (some ⟨workerId⟩), false, false, false⟩ := by
  cases h <;> first | exact ⟨_, _, ‹_›, ‹_›, by simp_all, rfl⟩ | simp_all

theorem congr {other : WorkerView} (heq : other = view) : WorkerStage workerId other := heq ▸ h

theorem gone (htok : view.token = .reserved ∨ view.token = .attached) :
    WorkerStage workerId { view with token := .gone } := by
  cases h with
  | absent | spawned => simp at htok
  | reserved | dropped => exact .dropped
  | abandoned => exact .abandoned
  | held _ hthr => exact .held rfl hthr
  | ready _ panicked => exact .ready rfl panicked
  | joining _ panicked => exact .joining rfl panicked
  | removed _ panicked => exact .removed rfl panicked

theorem exit (hthr : view.thread = .running) (panicked : Bool) :
    WorkerStage workerId { view with thread := .finished panicked } := by
  cases h with
  | spawned _ => exact .spawned nofun
  | held htok _ => exact .held htok nofun
  | _ => simp at hthr

end WorkerStage

structure Supervised (config : SupervisorConfig) (s : Supervision) : Prop where
  failure : s.failure = none
  bounded : s.state.records.size ≤ config.hardCap
  stage : ∀ workerId, WorkerStage workerId (s.view workerId)
  admitted : ∀ workerId, s.tokens workerId ≠ .absent →
    1 ≤ workerId ∧ workerId ≤ s.state.nextWorkerId
  nextWorkerId : s.state.nextWorkerId ≤ u64Max
  readyNodup : (s.ready.map Prod.fst).Nodup
  readyHandle : ∀ entry ∈ s.ready, entry.2 = ⟨entry.1⟩
  joinedNodup : (s.joined.map Prod.fst).Nodup
  joinedThread : ∀ entry ∈ s.joined, s.threads entry.1 = .finished entry.2
  joining : ∀ entry, s.joining = some entry → entry ∈ s.joined
  completed : s.state.completedWorkers + s.joining.isSome.toNat = s.joined.length
  panicked : s.state.panickedWorkers + (s.joining.any Prod.snd).toNat = s.joined.countP Prod.snd
  cancelled : ∀ workerId record,
    s.state.records.find workerId = some record →
      record.lifecycle.isRetired ∨ s.state.acceptingNewWorkers = false →
        record.cancel ∧ record.mailbox.state.stopped
  draining : 0 < s.drains → s.state.acceptingNewWorkers = false

theorem stopWhole_stopped (mailbox : DecodeCommandMailbox) : mailbox.stopWhole.state.stopped := by
  obtain ⟨hstopped, hstop⟩ | ⟨-, overwrites, hstop⟩ := mailbox.stop_cases
  · simpa [stopWhole, hstop, finish] using hstopped
  · simp [stopWhole, hstop, finish]

theorem finish_state (mailbox : DecodeCommandMailbox) (critical : Critical) :
    (mailbox.finish critical).state = mailbox.state := by
  cases critical <;> rfl

namespace WorkerRecord

variable (record : WorkerRecord) (use : WorkerUse)

theorem use_handle : (record.use use).handle = record.handle := by
  cases use <;> rfl

theorem use_lifecycle : (record.use use).lifecycle = record.lifecycle := by
  cases use <;> rfl

theorem use_cancelled {record : WorkerRecord} (h : record.cancel ∧ record.mailbox.state.stopped) :
    (record.use use).cancel ∧ (record.use use).mailbox.state.stopped := by
  cases use with
  | cancel => exact ⟨rfl, h.2⟩
  | select request =>
    refine ⟨h.1, ?_⟩
    simp only [use, finish_state]
    obtain ⟨error, hsel⟩ | ⟨-, hsel⟩ | ⟨hnot, -⟩ := record.mailbox.select_cases request
    · rw [hsel]
      exact h.2
    · rw [hsel]
      exact h.2
    · rw [h.2] at hnot
      cases hnot
  | stop => exact ⟨h.1, stopWhole_stopped _⟩
  | recv => exact h

theorem retired_cancelled (sourceGeneration : ℕ) :
    (record.retired sourceGeneration).cancel ∧
      (record.retired sourceGeneration).mailbox.state.stopped :=
  ⟨rfl, stopWhole_stopped _⟩

end WorkerRecord

namespace SupervisorState

variable (state : SupervisorState)

theorem retireWorker_find (workerId sourceGeneration other : ℕ) :
    (state.retireWorker workerId sourceGeneration).records.find other =
      if other = workerId then
        (state.records.find other).map fun record => record.retired sourceGeneration
      else state.records.find other := by
  simp only [retireWorker]
  split
  · rename_i hnone
    split_ifs with hother
    · rw [hother, hnone]
      rfl
    · rfl
  · simp only [updateRetirementPeak, find_adjust]

theorem retireWorker_rest (workerId sourceGeneration : ℕ) :
    let next := state.retireWorker workerId sourceGeneration
    next.records.size = state.records.size ∧
      next.nextWorkerId = state.nextWorkerId ∧
      next.completedWorkers = state.completedWorkers ∧
      next.panickedWorkers = state.panickedWorkers ∧
      next.acceptingNewWorkers = state.acceptingNewWorkers := by
  intro next
  simp only [next, retireWorker]
  split
  · exact ⟨rfl, rfl, rfl, rfl, rfl⟩
  · exact ⟨size_adjust _ _ _, rfl, rfl, rfl, rfl⟩

theorem refusal_eq_none {config : SupervisorConfig} :
    state.refusal config = none ↔
      state.acceptingNewWorkers ∧ state.records.size < config.hardCap ∧
        state.retiringCount < config.churnCap := by
  rw [refusal]
  split_ifs with hacc hhard hchurn
  · simp_all
  · simp_all
  · simp_all
  · simp_all

theorem admit_cases (config : SupervisorConfig) (source : DecoderSourceFingerprint) (cancel : Bool)
    (mailbox : DecodeCommandMailbox) :
    (∃ refusal, state.refusal config = some refusal ∧
        state.admitWorker config source cancel mailbox =
          ({ state with admissionRefusals := saturatingAddU64 state.admissionRefusals 1 },
            .error refusal)) ∨
      state.refusal config = none ∧
        ((∃ error, state.admitWorker config source cancel mailbox = (state, .error error)) ∨
          state.nextWorkerId + 1 < 2 ^ 64 ∧ ∃ peak,
            state.admitWorker config source cancel mailbox =
              ({ state with
                  nextWorkerId := state.nextWorkerId + 1
                  records := state.records.insert (state.nextWorkerId + 1)
                    { identity := ⟨state.nextWorkerId + 1, source, 0⟩
                      lifecycle := .starting
                      cancel
                      mailbox
                      handle := none }
                  peakOwnedWorkers := peak },
                .ok (state.nextWorkerId + 1))) := by
  cases hrefusal : state.refusal config with
  | some refusal =>
    left
    exact ⟨refusal, rfl, by rw [admitWorker, hrefusal]⟩
  | none =>
    refine .inr ⟨rfl, ?_⟩
    cases hid : checkedAddU64 state.nextWorkerId 1 with
    | none =>
      left
      exact ⟨_, by simp only [admitWorker, hrefusal, hid]; rfl⟩
    | some workerId =>
      right
      have hadm := hid
      obtain ⟨hlt, rfl⟩ := checkedWord_eq_some.mp hid
      exact ⟨hlt, _, by simp only [admitWorker, hrefusal, hadm]; rfl⟩

end SupervisorState

namespace Supervised

variable {config : SupervisorConfig} {s t : Supervision}

variable (h : Supervised config s) {workerId : ℕ}
include h

theorem refuse (refusals : ℕ) :
    Supervised config { s with state := { s.state with admissionRefusals := refusals } } :=
  { h with }

theorem fresh (hid : s.state.nextWorkerId < workerId) :
    s.tokens workerId = .absent ∧ s.state.records.find workerId = none := by
  have habs : s.tokens workerId = .absent := by
    by_contra hadm
    have := (h.admitted workerId hadm).2
    omega
  have hview := (h.stage workerId).of_absent habs
  have hhand := congrArg WorkerView.handle hview
  exact ⟨habs, map_eq_none_iff.mp hhand⟩

theorem admitted_update {phase : TokenPhase} (htok : s.tokens workerId ≠ .absent) :
    ∀ other, update s.tokens workerId phase other ≠ .absent →
      1 ≤ other ∧ other ≤ s.state.nextWorkerId := by
  intro other hadm
  by_cases hother : other = workerId
  · subst hother
    exact h.admitted other htok
  · rw [update_of_ne hother] at hadm
    exact h.admitted other hadm

open Supervision

theorem stages (workerId : ℕ) (hrest : ∀ other, other ≠ workerId → t.view other = s.view other)
    (hown : WorkerStage workerId (t.view workerId)) (other : ℕ) :
    WorkerStage other (t.view other) := by
  by_cases hother : other = workerId
  · subst hother
    exact hown
  · exact (h.stage other).congr (hrest other hother)

theorem reserve (hacc : s.state.acceptingNewWorkers) (hbdd : s.state.records.size < config.hardCap)
    (hlt : s.state.nextWorkerId + 1 < 2 ^ 64) (record : WorkerRecord)
    (hstarting : record.lifecycle = .starting) (hhand : record.handle = none) (peak : ℕ) :
    Supervised config { s with
      state := { s.state with
        nextWorkerId := s.state.nextWorkerId + 1
        records := s.state.records.insert (s.state.nextWorkerId + 1) record
        peakOwnedWorkers := peak }
      tokens := update s.tokens (s.state.nextWorkerId + 1) .reserved } := by
  obtain ⟨habs, hnone⟩ := h.fresh (Nat.lt_succ_self s.state.nextWorkerId)
  have hview := (h.stage _).of_absent habs
  refine { h with
    bounded := ?_, stage := ?_, admitted := ?_, nextWorkerId := ?_,
    cancelled := ?_ }
  · simp only [size_insert record hnone]
    omega
  · refine h.stages (s.state.nextWorkerId + 1) (fun other hother => by simp [view, hother]) ?_
    refine WorkerStage.reserved.congr ?_
    simp only [view, WorkerView.mk.injEq] at hview ⊢
    simp only [update_self, find_insert, if_true, map_some, hhand]
    exact ⟨trivial, hview.2.1, trivial, hview.2.2.2⟩
  · intro workerId htok
    by_cases hid : workerId = s.state.nextWorkerId + 1
    · simp only
      omega
    · simp only [update_of_ne hid] at htok ⊢
      have := h.admitted workerId htok
      omega
  · simp only [u64Max]
    omega
  · intro workerId other hfind hretired
    simp only [find_insert] at hfind
    split_ifs at hfind with hid
    · cases hfind
      rw [hstarting, hacc] at hretired
      simp [WorkerLifecycle.isRetired] at hretired
    · exact h.cancelled workerId other hfind hretired

theorem keep {state : SupervisorState}
    (hsize : state.records.size = s.state.records.size)
    (hhand : ∀ workerId, (state.records.find workerId).map handle =
      (s.state.records.find workerId).map handle)
    (hnext : state.nextWorkerId = s.state.nextWorkerId)
    (hcomp : state.completedWorkers = s.state.completedWorkers)
    (hpanicked : state.panickedWorkers = s.state.panickedWorkers)
    (hcanc : ∀ workerId record, state.records.find workerId = some record →
      record.lifecycle.isRetired ∨ state.acceptingNewWorkers = false →
      record.cancel ∧ record.mailbox.state.stopped)
    (hacc : s.state.acceptingNewWorkers = false → state.acceptingNewWorkers = false)
    :
    Supervised config { s with state } := by
  refine { h with
    bounded := ?_, stage := ?_, admitted := ?_, nextWorkerId := ?_,
    completed := ?_, panicked := ?_, cancelled := hcanc, draining := ?_ }
  · exact hsize.trans_le h.bounded
  · intro workerId
    refine (h.stage workerId).congr ?_
    simp only [view, hhand workerId]
  · rw [hnext]
    exact h.admitted
  · exact hnext.trans_le h.nextWorkerId
  · rw [hcomp]
    exact h.completed
  · rw [hpanicked]
    exact h.panicked
  · intro hdrain
    exact hacc (h.draining hdrain)

theorem spawn (htok : s.tokens workerId = .reserved) :
    Supervised config { s with
      tokens := update s.tokens workerId .spawned
      threads := update s.threads workerId .running } := by
  have hview := (h.stage workerId).of_reserved htok
  refine { h with stage := ?_, admitted := ?_, joinedThread := ?_ }
  · refine h.stages workerId (fun other hother => by simp [view, hother]) ?_
    have hrun : ThreadPhase.running ≠ .unspawned := by simp
    refine (WorkerStage.spawned hrun).congr ?_
    simp only [view, WorkerView.mk.injEq] at hview ⊢
    simp only [update_self]
    exact ⟨trivial, trivial, hview.2.2⟩
  · exact h.admitted_update (by simp [htok])
  · intro entry hent
    have hthr := h.joinedThread entry hent
    have hne : entry.1 ≠ workerId := by
      intro heq
      have hunspawned := congrArg WorkerView.thread hview
      simp only [view] at hunspawned
      rw [heq, hunspawned] at hthr
      cases hthr
    simp only [update_of_ne hne]
    exact hthr

theorem attach (htok : s.tokens workerId = .spawned) :
    Supervised config ({ s with
      tokens := update s.tokens workerId .attached }.expect
        (s.state.attach workerId ⟨workerId⟩)) := by
  obtain ⟨thread, hthr, hview⟩ := (h.stage workerId).of_spawned htok
  have hhand := congrArg WorkerView.handle hview
  obtain ⟨record, hrec, hnone⟩ := map_eq_some_iff.mp hhand
  simp only [SupervisorState.attach, hrec, hnone, isSome_none, Bool.false_eq_true, if_false, expect]
  refine { h with bounded := ?_, stage := ?_, admitted := ?_, cancelled := ?_ }
  · simpa using h.bounded
  · refine h.stages workerId (fun other hother => by simp [view, hother]) ?_
    have hset : TokenPhase.attached.isSettled := rfl
    refine (WorkerStage.held hset hthr).congr ?_
    simp only [view, WorkerView.mk.injEq] at hview ⊢
    simp only [update_self, find_adjust, if_true, hrec, map_some]
    exact ⟨trivial, hview.2.1, trivial, hview.2.2.2⟩
  · exact h.admitted_update (by simp [htok])
  · intro other found hfind hretired
    simp only [find_adjust] at hfind
    split_ifs at hfind with hother
    · rw [hother, hrec] at hfind
      cases hfind
      apply h.cancelled workerId record hrec
      refine hretired.imp_left ?_
      cases hlifecycle : record.lifecycle <;>
        simp [hlifecycle, WorkerLifecycle.isRetired]
    · exact h.cancelled other found hfind hretired

theorem abandon (htok : s.tokens workerId = .reserved) :
    Supervised config ({ s with
      tokens := update s.tokens workerId .gone }.expect (s.state.abandon workerId)) := by
  have hview := (h.stage workerId).of_reserved htok
  have hhand := congrArg WorkerView.handle hview
  obtain ⟨record, hrec, hnone⟩ := map_eq_some_iff.mp hhand
  simp only [SupervisorState.abandon, hrec, hnone, isSome_none,
    Bool.false_eq_true, if_false, expect]
  refine { h with bounded := ?_, stage := ?_, admitted := ?_, cancelled := ?_ }
  · exact (size_erase_le _ _).trans h.bounded
  · refine h.stages workerId (fun other hother => by simp [view, hother]) ?_
    refine WorkerStage.abandoned.congr ?_
    simp only [view, WorkerView.mk.injEq] at hview ⊢
    simp only [update_self, find_erase, if_true, map_none]
    exact ⟨trivial, hview.2.1, trivial, hview.2.2.2⟩
  · exact h.admitted_update (by simp [htok])
  · intro other found hfind hretired
    simp only [find_erase] at hfind
    split_ifs at hfind with hother
    exact h.cancelled other found hfind hretired

theorem retire (htok : s.tokens workerId = .reserved ∨ s.tokens workerId = .attached)
    (sourceGeneration : ℕ) :
    Supervised config { s with
      tokens := update s.tokens workerId .gone
      state := s.state.retireWorker workerId sourceGeneration } := by
  obtain ⟨hsize, hnext, hcomp, hpanicked, hacc⟩ :=
    s.state.retireWorker_rest workerId sourceGeneration
  have hfind := s.state.retireWorker_find workerId sourceGeneration
  have hkept : Supervised config { s with
      state := s.state.retireWorker workerId sourceGeneration } := by
    refine h.keep hsize ?_ hnext hcomp hpanicked ?_ ?_
    · intro other
      rw [hfind]
      split_ifs
      · cases s.state.records.find other <;> rfl
      · rfl
    · intro other found hother hretired
      rw [hfind] at hother
      split_ifs at hother
      · obtain ⟨record, -, rfl⟩ := map_eq_some_iff.mp hother
        exact record.retired_cancelled sourceGeneration
      · rw [hacc] at hretired
        exact h.cancelled other found hother hretired
    · intro hnot
      rw [hacc]
      exact hnot
  refine { hkept with stage := ?_, admitted := ?_ }
  · intro other
    by_cases hother : other = workerId
    · subst hother
      refine ((hkept.stage other).gone htok).congr ?_
      simp [view]
    · refine (hkept.stage other).congr ?_
      simp [view, hother]
  · apply hkept.admitted_update
    obtain hres | hattached := htok
    · simp [hres]
    · simp [hattached]

theorem beginDrain :
    Supervised config { s with state := s.state.beginDrain, drains := s.drains + 1 } := by
  have hkept : Supervised config { s with state := s.state.beginDrain } := by
    refine h.keep (size_mapValues _ _) ?_ rfl rfl rfl ?_ fun _ => rfl
    · intro workerId
      simp only [SupervisorState.beginDrain, updateRetirementPeak, find_mapValues, map_map]
      rfl
    · intro workerId found hfind _
      simp only [SupervisorState.beginDrain, updateRetirementPeak, find_mapValues] at hfind
      obtain ⟨record, -, rfl⟩ := map_eq_some_iff.mp hfind
      exact record.retired_cancelled _
  exact { hkept with draining := fun _ => rfl }

theorem endDrain (hdrain : 0 < s.drains) :
    Supervised config { s with state := s.state.endDrain.1, drains := s.drains - 1 } := by
  have hacc := h.draining hdrain
  have hkept : Supervised config { s with state := s.state.endDrain.1 } := by
    rw [SupervisorState.endDrain]
    split_ifs
    · exact h
    · refine h.keep (size_mapValues _ _) ?_ rfl rfl rfl ?_ id
      · intro workerId
        simp only [updateRetirementPeak, find_mapValues, map_map]
        rfl
      · intro workerId found hfind _
        simp only [updateRetirementPeak, find_mapValues] at hfind
        obtain ⟨record, hrec, rfl⟩ := map_eq_some_iff.mp hfind
        exact h.cancelled workerId record hrec (.inr hacc)
  refine { hkept with draining := fun _ => ?_ }
  rw [SupervisorState.endDrain]
  split_ifs
  · exact hacc
  · exact hacc

theorem use (workerId : ℕ) (use : WorkerUse) :
    Supervised config { s with
      state := { s.state with
        records := s.state.records.adjust workerId fun record => record.use use } } := by
  refine h.keep (size_adjust _ _ _) ?_ rfl rfl rfl ?_ id
  · intro other
    simp only [find_adjust]
    split_ifs
    · rw [map_map]
      congr 1
      funext record
      exact record.use_handle use
    · rfl
  · intro other found hfind hretired
    simp only [find_adjust] at hfind
    split_ifs at hfind
    · obtain ⟨record, hrec, rfl⟩ := map_eq_some_iff.mp hfind
      rw [record.use_lifecycle] at hretired
      exact use_cancelled use (h.cancelled other record hrec hretired)
    · exact h.cancelled other found hfind hretired

theorem exit (hthr : s.threads workerId = .running) (panicked : Bool) :
    Supervised config { s with threads := update s.threads workerId (.finished panicked) } := by
  refine { h with stage := ?_, joinedThread := ?_ }
  · refine h.stages workerId (fun other hother => by simp [view, hother]) ?_
    refine ((h.stage workerId).exit hthr panicked).congr ?_
    simp [view]
  · intro entry hent
    have hjoin := h.joinedThread entry hent
    have hne : entry.1 ≠ workerId := by
      intro heq
      rw [heq, hthr] at hjoin
      cases hjoin
    simp only [update_of_ne hne]
    exact hjoin

end Supervised

end CollideOScope.Video
