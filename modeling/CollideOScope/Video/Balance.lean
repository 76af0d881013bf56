import CollideOScope.Video.Worker

/-!
# Frames are accounted for

Every published frame was consumed, overwritten or found stale, or it waits.
A publication needs a command of its own and every command an epoch of its own,
so the counters of frames never saturate.
-/

namespace CollideOScope.Video

open Nat DecodeCommandMailbox Option Bool QueuedCommand

variable {P M : Type}

namespace SharedState

def accounted (shared : SharedState P M) : ℕ :=
  shared.frameOverwrites + shared.staleCompletedFrames + shared.latest.isSome.toNat

variable {shared : SharedState P M} {consumed : ℕ}

section

variable (h : shared.publishedFrames = consumed + shared.accounted)
include h

theorem publish_accounted (hlim : shared.publishedFrames + 1 ≤ u64Max) (frame : DecodedFrame P M) :
    (shared.publish frame).publishedFrames = shared.publishedFrames + 1 ∧
      (shared.publish frame).publishedFrames = consumed + (shared.publish frame).accounted := by
  have hpub : (shared.publish frame).publishedFrames =
      shared.publishedFrames + 1 := saturatingAddU64_of_le hlim
  refine ⟨hpub, ?_⟩
  rw [hpub]
  rw [accounted] at h
  cases hlatest : shared.latest with
  | none =>
    rw [hlatest] at h
    simp only [accounted, publish, hlatest, isSome_none,
      isSome_some, toNat_true, toNat_false] at h ⊢
    simp only [false_eq_true, if_false]
    omega
  | some earlier =>
    rw [hlatest] at h
    simp only [isSome_some, toNat_true] at h
    have hover : saturatingAddU64 shared.frameOverwrites 1 =
        shared.frameOverwrites + 1 := saturatingAddU64_of_le (by omega)
    simp only [accounted, publish, hlatest, isSome_some, toNat_true, if_true, hover]
    omega

theorem complete_accounted [CodecMotion M] (hlim : shared.publishedFrames + 1 ≤ u64Max)
    (work : Work) (outcome : DecodeOutcome P M) (generationIsCurrent epochIsLatest : Bool) :
    let next := shared.complete work outcome generationIsCurrent epochIsLatest
    next.publishedFrames ≤ shared.publishedFrames + 1 ∧
      next.publishedFrames = consumed + next.accounted := by
  intro next
  have hsame : ∀ other : SharedState P M,
      other.publishedFrames = shared.publishedFrames →
        other.accounted = shared.accounted →
          other.publishedFrames ≤ shared.publishedFrames + 1 ∧
            other.publishedFrames = consumed + other.accounted := by
    intro other hpub hacct
    rw [hpub, hacct]
    exact ⟨le_succ _, h⟩
  by_cases hcur : generationIsCurrent
  · cases outcome with
    | ok frame =>
      obtain ⟨hpub, hbalance⟩ := publish_accounted h hlim (frame.stamped work)
      have hnext : next = shared.publish (frame.stamped work) := by simp [next, complete, hcur]
      rw [hnext]
      exact ⟨hpub.le, hbalance⟩
    | failed error =>
      apply hsame <;> cases epochIsLatest <;>
        simp [next, complete, hcur, recordFailedDecodeAttempt, accounted]
    | superseded =>
      apply hsame <;>
        simp [next, complete, hcur, dropSupersededDecodeAttempt, accounted]
  · apply hsame <;>
      simp [next, complete, hcur, dropSupersededDecodeAttempt, accounted]

theorem discardStale_accounted (hlim : shared.publishedFrames ≤ u64Max) (currentGeneration : ℕ) :
    let next := shared.discardStale currentGeneration
    next.publishedFrames = shared.publishedFrames ∧ next.accounted = shared.accounted := by
  intro next
  rw [accounted] at h
  cases hlatest : shared.latest with
  | none =>
    simp only [next, discardStale, hlatest, any_none, false_eq_true, if_false]
    split_ifs <;> simp [accounted, hlatest]
  | some frame =>
    rw [hlatest] at h
    simp only [isSome_some, toNat_true] at h
    have hstale : saturatingAddU64 shared.staleCompletedFrames 1 =
        shared.staleCompletedFrames + 1 := saturatingAddU64_of_le (by omega)
    simp only [next, discardStale]
    split_ifs <;>
      simp [accounted, dropStaleCompletedFrame, hlatest, hstale, add_assoc]

end

variable {frame : DecodedFrame P M}

theorem discardStale_latest {currentGeneration : ℕ}
    (h : (shared.discardStale currentGeneration).latest = some frame) :
    frame.sourceGeneration = currentGeneration ∧ shared.latest = some frame := by
  cases hlatest : shared.latest with
  | none =>
    simp only [discardStale, hlatest] at h
    split_ifs at h <;> simp_all
  | some earlier =>
    by_cases hgen : earlier.sourceGeneration = currentGeneration
    · simp only [discardStale, hlatest] at h
      split_ifs at h <;> simp_all
    · simp only [discardStale, hlatest] at h
      split_ifs at h <;> simp_all [dropStaleCompletedFrame]

theorem discardStale_of_current (h : shared.latest = some frame) :
    (shared.discardStale frame.sourceGeneration).latest = some frame := by
  simp only [discardStale, h]
  split_ifs <;> simp_all

end SharedState

def QueuedCommand.isSelect (queued : QueuedCommand) : Bool :=
  match queued.command with
  | .select .. => true
  | .stop => false

/-- Frames balance, and every frame, selection of the worker and waiting
selection has had an epoch. -/
structure Balanced (s : ThreadedDecoder P M) : Prop where
  epoch_le : s.mailbox.state.epoch ≤ u64Max
  owed : s.shared.publishedFrames + s.worker.work?.isSome.toNat +
      (s.mailbox.state.pending.any isSelect).toNat ≤
    s.mailbox.state.epoch
  balance : s.shared.publishedFrames = s.consumedFrames + s.shared.accounted

namespace Balanced

theorem published_le {s : ThreadedDecoder P M} (h : Balanced s) :
    s.shared.publishedFrames ≤ u64Max := by
  have := h.epoch_le
  have := h.owed
  omega

open SharedState

theorem opened (seed : DecodedFrame P M) : Balanced (.opened seed) := by
  refine ⟨?_, ?_, ?_⟩
  · change 1 ≤ u64Max
    decide
  · simp [ThreadedDecoder.opened, healthyWithSeed, new, WorkerPhase.work?]
  · simp [ThreadedDecoder.opened, healthyWithSeed, accounted]

variable {s t : ThreadedDecoder P M}

theorem select (h : Balanced s) (request : SelectRequest) :
    Balanced { s with
      mailbox := (s.mailbox.select request).1
      critical := (s.mailbox.select request).2.1 } := by
  have hsame : ∀ (mailbox : DecodeCommandMailbox) (critical : Critical),
      mailbox.state = s.mailbox.state → Balanced { s with mailbox, critical } := by
    intro mailbox critical hst
    refine ⟨?_, ?_, h.balance⟩
    · rw [hst]
      exact h.epoch_le
    · rw [hst]
      exact h.owed
  obtain ⟨error, hsel⟩ | ⟨-, hsel⟩ | ⟨-, -, hlt, hsel⟩ := s.mailbox.select_cases request
  · rw [hsel]
    exact hsame _ _ rfl
  · rw [hsel]
    exact hsame _ _ rfl
  · rw [hsel]
    have howed := h.owed
    refine ⟨?_, ?_, h.balance⟩
    · rw [u64Max]
      simp only
      omega
    · simp only [any_some, queued, isSelect, toNat_true]
      omega

theorem stop (h : Balanced s) :
    Balanced { s with mailbox := s.mailbox.stop.1, critical := s.mailbox.stop.2 } := by
  obtain ⟨-, hstop⟩ | ⟨-, overwrites, hstop⟩ := s.mailbox.stop_cases
  · rw [hstop]
    exact ⟨h.epoch_le, h.owed, h.balance⟩
  · rw [hstop]
    have howed := h.owed
    have hepoch := h.epoch_le
    have hadd : s.mailbox.state.epoch ≤ saturatingAddU64 s.mailbox.state.epoch 1 := by
      rw [saturatingAddU64]
      omega
    refine ⟨min_le_right _ _, ?_, h.balance⟩
    simp only [any_some, isSelect, toNat_false]
    omega

theorem store (h : Balanced s) {mailbox : DecodeCommandMailbox} {critical : Critical}
    (hstore : s.mailbox.store s.critical = some (mailbox, critical)) :
    Balanced { s with mailbox, critical } := by
  have hst := store_state hstore
  refine ⟨?_, ?_, h.balance⟩
  · rw [hst]
    exact h.epoch_le
  · rw [hst]
    exact h.owed

theorem pollSlot (h : Balanced s) (currentGeneration : ℕ) :
    Balanced (s.pollSlot currentGeneration).1 := by
  obtain ⟨hpub, hacct⟩ := discardStale_accounted h.balance h.published_le currentGeneration
  have howed := h.owed
  have hbalance := h.balance
  rw [← hpub] at howed hbalance
  rw [← hacct] at hbalance
  have hlim := h.published_le
  rw [← hpub] at hlim
  rw [ThreadedDecoder.pollSlot]
  generalize s.shared.discardStale currentGeneration = shared at *
  simp only
  split
  · rename_i frame hlatest
    rw [accounted, hlatest] at hbalance
    simp only [isSome_some, toNat_true] at hbalance
    have hconsumed : saturatingAddU64 s.consumedFrames 1 =
        s.consumedFrames + 1 := saturatingAddU64_of_le (by omega)
    have hnext : shared.publishedFrames = s.consumedFrames + 1 +
        ({ shared with latest := none } : SharedState P M).accounted := by
      simp only [accounted, isSome_none, toNat_false]
      omega
    simp only [ThreadedDecoder.consume, hconsumed]
    split <;> exact ⟨h.epoch_le, howed, hnext⟩
  · split <;> exact ⟨h.epoch_le, howed, hbalance⟩

theorem pollHealth (h : Balanced s) : Balanced s.pollHealth.1 := by
  rw [ThreadedDecoder.pollHealth]
  split
  · exact ⟨h.epoch_le, h.owed, h.balance⟩
  · split <;> exact ⟨h.epoch_le, h.owed, h.balance⟩

variable {worker : WorkerPhase P M} (h : Balanced s)
include h

theorem phase (hwork : worker.work? = s.worker.work?) : Balanced { s with worker } := by
  refine ⟨h.epoch_le, ?_, h.balance⟩
  rw [hwork]
  exact h.owed

theorem recv (hstep : s.recv = some t) (hidle : s.worker = .idle) : Balanced t := by
  rw [ThreadedDecoder.recv] at hstep
  split at hstep
  · rename_i queued _ hpend
    cases hstep
    have howed := h.owed
    rw [hidle, hpend] at howed
    refine ⟨h.epoch_le, ?_, h.balance⟩
    simp only [WorkerPhase.work?, isSome_none, toNat_false, any_some, isSelect,
      ThreadedDecoder.receive, any_none] at howed ⊢
    cases hcmd : queued.command <;>
      simp only [hcmd, toNat_true, toNat_false, isSome_none, isSome_some] at howed ⊢ <;> omega
  · cases hstep

theorem complete [CodecMotion M] {work : Work} {outcome : DecodeOutcome P M}
    {generationIsCurrent epochIsLatest : Bool}
    (hworker : s.worker = .completing work outcome generationIsCurrent epochIsLatest) :
    Balanced { s with
      shared := s.shared.complete work outcome generationIsCurrent epochIsLatest
      worker := .idle } := by
  have howed := h.owed
  have hepoch := h.epoch_le
  rw [hworker] at howed
  simp only [WorkerPhase.work?, isSome_some, toNat_true] at howed
  obtain ⟨hpub, hbalance⟩ := complete_accounted h.balance
    (by omega) work outcome generationIsCurrent epochIsLatest
  refine ⟨hepoch, ?_, hbalance⟩
  simp only [WorkerPhase.work?, isSome_none, toNat_false]
  omega

theorem leave {shared : SharedState P M} (hwork : worker.work? = none)
    (hpub : shared.publishedFrames = s.shared.publishedFrames)
    (hacct : shared.accounted = s.shared.accounted) :
    Balanced { s with shared, worker } := by
  have howed := h.owed
  refine ⟨h.epoch_le, ?_, ?_⟩
  · rw [hwork, hpub]
    simp only [isSome_none, toNat_false]
    omega
  · rw [hpub, hacct]
    exact h.balance

theorem advance [CodecMotion M] (hstep : s.advance = some t) : Balanced t := by
  rw [ThreadedDecoder.advance] at hstep
  split at hstep
  case h_1 hworker => exact h.recv hstep hworker
  case h_5 | h_11 => cases hstep
  all_goals cases hstep
  case h_4 => exact h.leave rfl rfl rfl
  case h_10 hworker => exact h.complete hworker
  all_goals
    rename_i hworker
    apply h.phase
    rw [hworker]
    first
      | rfl
      | (split_ifs <;> rfl)

theorem workerStep [CodecMotion M] {action : WorkerAction P M}
    (hstep : s.workerStep action = some t) : Balanced t := by
  cases action with
  | advance => exact h.advance hstep
  | decode outcome =>
    simp only [ThreadedDecoder.workerStep] at hstep
    split at hstep
    · rename_i work hworker
      cases hstep
      apply h.phase
      rw [hworker]
      rfl
    · cases hstep
  | panic =>
    simp only [ThreadedDecoder.workerStep] at hstep
    split at hstep
    · cases hstep
      refine h.leave rfl ?_ ?_
      · rw [setFailed]
        split_ifs <;> rfl
      · rw [setFailed]
        split_ifs <;> rfl
    · cases hstep

theorem step [CodecMotion M] {label : DecoderLabel P M} {output : DecoderOutput P M}
    (hstep : decoderStep s label = some (t, output)) : Balanced t := by
  cases decoderMove hstep with
  | select request _ _ => exact h.select request
  | stop _ => exact h.stop
  | store hstore => exact h.store hstore
  | pollBegin _ => exact ⟨h.epoch_le, h.owed, h.balance⟩
  | pollSlot _ => exact h.pollSlot _
  | pollHealth => exact h.pollHealth
  | worker hworker => exact h.workerStep hworker

end Balanced

end CollideOScope.Video
