import CollideOScope.Video.Delivers

/-!
# Superseded failures

The worker looks whether a command that failed is still the newest before it
locks the state, and a poll compares only the generation.  So the failure that
a poll returns is that of the newest selection as long as no selection of its
generation is accepted once the failure was found to be the newest.
-/

namespace CollideOScope.Video

open Nat SharedState

variable {P M : Type} {error : ℕ × ℕ × String}

/-- The last locked section of the worker stores this failure. -/
def WorkerPhase.failure? : WorkerPhase P M → Option (ℕ × ℕ × String)
  | .completing work (.failed error) true true => some (work.generation, work.epoch, error)
  | _ => none

theorem mem_failure? {worker : WorkerPhase P M} :
    error ∈ worker.failure? ↔ ∃ work,
      worker = .completing work (.failed error.2.2) true true ∧
        error = (work.generation, work.epoch, error.2.2) := by
  constructor
  · intro herr
    unfold WorkerPhase.failure? at herr
    split at herr <;> cases herr
    exact ⟨_, rfl, rfl⟩
  · rintro ⟨work, rfl, herr⟩
    exact herr ▸ rfl

/-- No selection is accepted while a failure of its generation waits, and a
failure is not found to be the newest while one is accepted. -/
def Unsuperseded (s : ThreadedDecoder P M) : DecoderLabel P M → Bool
  | .select request =>
    s.shared.commandError.all (·.1 ≠ request.generation) &&
      s.worker.failure?.all (·.1 ≠ request.generation)
  | .worker .advance =>
    match s.worker with
    | .epochCheck work (.failed _) true =>
      !(s.critical.ofHost && s.mailbox.currentEpoch = work.epoch &&
        s.mailbox.state.generation = work.generation)
    | _ => true
  | _ => true

/-- The epoch that is stored when the lock is free. -/
def ThreadedDecoder.storedEpoch (s : ThreadedDecoder P M) : ℕ :=
  match s.critical with
  | .free => s.mailbox.currentEpoch
  | .select _ epoch | .selectEpoch epoch | .stop epoch | .stopEpoch epoch => epoch

structure NewestFailure (s : ThreadedDecoder P M) (newest : ℕ × ℕ) : Prop where
  generation : s.mailbox.state.generation = newest.1
  failure : ∀ error, error ∈ s.shared.commandError ∨ error ∈ s.worker.failure? →
    error.1 = newest.1 → error.2.1 = newest.2
  epoch : newest.2 ≤ s.mailbox.state.epoch
  stored : newest.2 ≤ s.storedEpoch
  current : s.critical.ofHost = false → newest.2 ≤ s.mailbox.currentEpoch
  pending : ∀ queued ∈ s.mailbox.state.pending, queued.command ≠ .stop → queued.epoch ≤ newest.2
  work : ∀ work ∈ s.worker.work?, work.epoch ≤ newest.2

variable {s t : ThreadedDecoder P M} {newest : ℕ × ℕ}

theorem discardStale_error {shared : SharedState P M} {generation : ℕ}
    (h : error ∈ (shared.discardStale generation).commandError) :
    error ∈ shared.commandError ∧ error.1 = generation := by
  cases hshared : shared.commandError with simp only [discardStale] at h
  | none => split_ifs at h <;> simp_all [dropStaleCompletedFrame]
  | some earlier => split_ifs at h <;> simp_all [dropStaleCompletedFrame]

open ThreadedDecoder

theorem pollSlot_error (s : ThreadedDecoder P M) (generation : ℕ) :
    (∀ error ∈ (s.pollSlot generation).1.shared.commandError, error ∈ s.shared.commandError) ∧
      ∀ error, (s.pollSlot generation).2 = some (.error error) →
        ∃ epoch, s.shared.commandError = some (generation, epoch, error) := by
  simp only [pollSlot]
  split
  · simp only [consume]
    split <;> exact ⟨fun _ h => (discardStale_error h).1, by simp⟩
  · split
    · rename_i found epoch text herr
      obtain ⟨hmem, hgen⟩ := discardStale_error herr
      refine ⟨by simp, ?_⟩
      rintro error ⟨⟩
      exact ⟨epoch, hgen ▸ hmem⟩
    · exact ⟨fun _ h => (discardStale_error h).1, by simp⟩

variable [CodecMotion M]

theorem workerStep_failure {action : WorkerAction P M} (h : s.workerStep action = some t) :
    (∀ error ∈ t.shared.commandError, error ∈ s.shared.commandError ∨ error ∈ s.worker.failure?) ∧
      ∀ error ∈ t.worker.failure?, action = .advance ∧
        ∃ work, s.worker = .epochCheck work (.failed error.2.2) true ∧
          s.mailbox.currentEpoch = work.epoch ∧
            error = (work.generation, work.epoch, error.2.2) := by
  simp only [mem_failure?]
  cases action with simp only [workerStep] at h
  | advance =>
    cases hworker : s.worker with simp only [advance, hworker] at h
    | idle =>
      simp only [recv] at h
      split at h <;> cases h
      refine ⟨fun _ h => .inl h, ?_⟩
      rintro error ⟨work, hnext, -⟩
      simp only [receive] at hnext
      split at hnext <;> cases hnext
    | decoding | exited => cases h
    | epochCheck work outcome generationIsCurrent =>
      cases h
      refine ⟨fun _ h => .inl h, ?_⟩
      rintro error ⟨work, hnext, herr⟩
      simp only [WorkerPhase.completing.injEq, decide_eq_true_eq] at hnext
      obtain ⟨rfl, rfl, rfl, hepoch⟩ := hnext
      exact ⟨rfl, _, rfl, hepoch, herr⟩
    | completing work outcome generationIsCurrent epochIsLatest =>
      cases h
      refine ⟨?_, by simp⟩
      intro error herr
      cases generationIsCurrent with
      | false => exact .inl herr
      | true =>
        cases outcome with
        | ok frame => cases herr
        | superseded => exact .inl herr
        | failed text =>
          cases epochIsLatest with
          | false => exact .inl herr
          | true =>
            cases herr
            exact .inr ⟨work, rfl, rfl⟩
    | _ =>
      cases h
      refine ⟨fun _ h => .inl h, ?_⟩
      rintro error ⟨work, hnext, -⟩
      try dsimp only at hnext
      first
        | (split_ifs at hnext <;> cases hnext)
        | cases hnext
  | decode outcome =>
    split at h <;> cases h
    exact ⟨fun _ h => .inl h, by simp⟩
  | panic =>
    split at h <;> cases h
    refine ⟨fun _ herr => .inl ?_, by simp⟩
    simp only [setFailed] at herr
    split_ifs at herr <;> exact herr

/-- The generation and the epoch of the selection that was accepted last. -/
def desired (newest : ℕ × ℕ) (s : ThreadedDecoder P M) : DecoderLabel P M → ℕ × ℕ
  | .select request =>
    match (s.mailbox.select request).2.2 with
    | .ok true => (request.generation, s.mailbox.state.epoch + 1)
    | _ => newest
  | _ => newest

/-- The decoder beside the selection that was accepted last. -/
def desires (P M : Type) [CodecMotion M] :
    Machine (ThreadedDecoder P M × ℕ × ℕ) (DecoderLabel P M) :=
  (decoderMachine P M).observe (0, 0) fun newest s label _ => desired newest s label

theorem NewestFailure.step {label : DecoderLabel P M} {output : DecoderOutput P M}
    (h : NewestFailure s newest) (hs : DecoderSound s) (hguard : Unsuperseded s label)
    (hstep : decoderStep s label = some (t, output)) :
    NewestFailure t (desired newest s label) := by
  have hframe : ∀ {u : ThreadedDecoder P M},
      u.mailbox.state = s.mailbox.state →
        u.mailbox.currentEpoch = s.mailbox.currentEpoch →
          u.critical = s.critical → u.worker = s.worker →
            (∀ error ∈ u.shared.commandError, error ∈ s.shared.commandError) →
              NewestFailure u newest := by
    intro u hst hcur hcrit hworker herr
    refine ⟨hst ▸ h.generation, fun error hmem => h.failure error
      (hworker ▸ hmem.imp_left (herr error)), hst ▸ h.epoch, ?_, ?_,
      hst ▸ h.pending, hworker ▸ h.work⟩
    · rw [storedEpoch, hcrit, hcur]
      exact h.stored
    · rw [hcrit, hcur]
      exact h.current
  cases decoderMove hstep with
  | select request hidle hfree =>
    obtain ⟨error, hsel⟩ | ⟨-, hsel⟩ | ⟨-, -, -, hsel⟩ := s.mailbox.select_cases request
    · rw [desired, hsel]
      exact hframe rfl rfl hfree.symm rfl fun _ h => h
    · rw [desired, hsel]
      exact hframe rfl rfl hfree.symm rfl fun _ h => h
    · rw [desired, hsel]
      simp only [Unsuperseded, Bool.and_eq_true, Option.all_eq_true, decide_eq_true_eq] at hguard
      refine ⟨rfl, fun error hmem heq => absurd heq
        (hmem.elim (hguard.1 error) (hguard.2 error)), le_rfl, le_rfl,
        by simp [Critical.ofHost], ?_, ?_⟩
      · rintro queued ⟨⟩ -
        exact le_rfl
      · intro work hwork
        exact (hs.mailbox.workEpoch work hwork).trans (le_succ _)
  | stop hfree =>
    obtain ⟨-, hstop⟩ | ⟨-, overwrites, hstop⟩ := s.mailbox.stop_cases
    · rw [hstop]
      exact hframe rfl rfl hfree.symm rfl fun _ h => h
    · have hlim := hs.balanced.epoch_le
      have hle : newest.2 ≤ saturatingAddU64 s.mailbox.state.epoch 1 := by
        have := h.epoch
        rw [saturatingAddU64]
        omega
      rw [hstop]
      refine ⟨h.generation, h.failure, hle, hle,
        fun _ => h.current (by rw [hfree]; rfl), ?_, h.work⟩
      rintro queued ⟨⟩ hne
      exact absurd rfl hne
  | store hstore =>
    have hst := DecodeCommandMailbox.store_state hstore
    have hstored := h.stored
    have hcur := h.current
    refine ⟨hst ▸ h.generation, h.failure, hst ▸ h.epoch, ?_, ?_, hst ▸ h.pending, h.work⟩
    all_goals
      cases hcrit : s.critical <;>
        simp only [hcrit, DecodeCommandMailbox.store, reduceCtorEq,
          Option.some.injEq, Prod.mk.injEq] at hstore
      all_goals
        obtain ⟨rfl, rfl⟩ := hstore
        simp_all [storedEpoch, Critical.ofHost, desired]
  | pollBegin hfree => exact hframe rfl rfl rfl rfl fun _ h => h
  | pollSlot _ =>
    obtain ⟨hbox, hcrit, hworker, -⟩ := s.pollSlot_frame _
    exact hframe (by rw [hbox]) (by rw [hbox]) hcrit hworker (pollSlot_error s _).1
  | pollHealth =>
    obtain ⟨hbox, hcrit, hworker, hshared, -⟩ := s.pollHealth_frame
    exact hframe (by rw [hbox]) (by rw [hbox]) hcrit hworker (by rw [hshared]; exact fun _ h => h)
  | @worker action _ hworker =>
    obtain ⟨herrors, hfailures⟩ := workerStep_failure hworker
    have hfail : ∀ error,
        error ∈ t.shared.commandError ∨ error ∈ t.worker.failure? →
          error.1 = newest.1 → error.2.1 = newest.2 := by
      rintro error (hmem | hmem) heq
      · exact h.failure error (herrors error hmem) heq
      · obtain ⟨rfl, work, hcheck, hepoch, hfailed⟩ := hfailures error hmem
        rw [hfailed] at heq ⊢
        have hwork := h.work work (by rw [hcheck]; rfl)
        simp only [Unsuperseded, hcheck, hepoch] at hguard
        have hhost : s.critical.ofHost = false := by simpa [h.generation, ← heq] using hguard
        exact le_antisymm hwork (hepoch ▸ h.current hhost)
    obtain ⟨-, -, queued, hpend, rfl⟩ | ⟨work, shared, worker, hwork, rfl,
        hnext, -⟩ := workerStep_cases hworker
    · refine ⟨h.generation, hfail, h.epoch, h.stored, h.current, by simp, ?_⟩
      intro work hwork
      simp only [receive] at hwork
      split at hwork <;> cases hwork
      rename_i hcmd
      exact h.pending queued hpend (by simp [hcmd])
    · refine ⟨h.generation, hfail, h.epoch, h.stored, h.current, h.pending, ?_⟩
      intro other hother
      obtain hsame | hnone := hnext
      · rw [hsame] at hother
        cases hother
        exact h.work work hwork
      · rw [hnone] at hother
        cases hother

/-- While no selection of its generation is accepted once a failure was found to
be the newest, the failure that a poll returns is that of the selection that was
accepted last. -/
theorem polled_failure_newest {s t : ThreadedDecoder P M} {newest : ℕ × ℕ} {error : String}
    (h : (desires P M).ReachableBy (fun s label => Unsuperseded s.1 label) (s, newest))
    (hstep : decoderStep s .pollSlot = some (t, .polled (.error error))) :
    s.shared.commandError = some (newest.1, newest.2, error) := by
  have hinv : DecoderSound s ∧ NewestFailure s newest := by
    refine h.invariant (P := fun s => DecoderSound s.1 ∧ NewestFailure s.1 s.2) ?_ ?_
    · rintro ⟨s, newest⟩ ⟨⟨seed, rfl⟩, rfl⟩
      exact ⟨⟨.opened seed, .opened seed⟩, rfl, fun _ h => h.elim nofun nofun,
        zero_le _, zero_le _, fun _ => zero_le _, nofun, nofun⟩
    · rintro ⟨s, newest⟩ label ⟨t, next⟩ ⟨hs, h⟩ hguard hstep
      obtain ⟨hdecoder, rfl⟩ := Machine.observe_step_eq_some.mp hstep
      obtain ⟨output, hmove⟩ := decoderMachine_step.mp hdecoder
      exact ⟨hs.step hmove, h.step hs hguard hmove⟩
  obtain ⟨hs, hnewest⟩ := hinv
  simp only [decoderStep] at hstep
  split at hstep
  · rename_i generation hpolling
    simp only [Option.some.injEq, Prod.mk.injEq] at hstep
    obtain ⟨-, hpolled⟩ := hstep
    have hresult : (s.pollSlot generation).2 = some (.error error) := by
      cases hslot : (s.pollSlot generation).2 <;> simp_all
    obtain ⟨epoch, herror⟩ := (pollSlot_error s generation).2 error hresult
    have hgeneration : generation = newest.1 :=
      (hs.mailbox.polling generation hpolling).1.trans hnewest.generation
    rw [herror, ← hnewest.failure _ (.inl herror) hgeneration, hgeneration]
  · cases hstep

def sampleFailure : List (DecoderLabel ℕ CodecFrameIdentity) :=
  [.select ⟨1, 0x4000000000000000, none, false⟩, .store, .store,
    .worker .advance, .worker .advance, .worker .advance,
    .worker (.decode (.failed "seek")), .worker .advance, .worker .advance,
    .worker .advance, .worker .advance, .worker .advance]

theorem polled_failure_newest_sample :
    ∃ s : ThreadedDecoder ℕ CodecFrameIdentity, s.shared.commandError = some (1, 2, "seek") := by
  have hrun : ∃ s t, ((desires ℕ CodecFrameIdentity).restrict fun s label =>
      Unsuperseded s.1 label).exec (.opened (sampleFrame 0), 0, 0)
        (sampleFailure ++ [.pollBegin]) = some (s, 1, 2) ∧
      decoderStep s .pollSlot = some (t, .polled (.error "seek")) :=
    ⟨_, _, rfl, rfl⟩
  obtain ⟨s, t, hexec, hpoll⟩ := hrun
  exact ⟨s, polled_failure_newest (.of_restrict
    (Machine.reachable_of_exec ⟨⟨_, rfl⟩, rfl⟩ hexec)) hpoll⟩

/-- Another selection of the generation is accepted before the poll. -/
theorem superseded_failure_polled :
    ((desires ℕ CodecFrameIdentity).exec (.opened (sampleFrame 0), 0, 0)
      (sampleFailure ++ [.select ⟨1, 0, none, false⟩, .store, .store,
        .pollBegin])).map (fun s => (s.2, s.1.shared.commandError,
          (decoderStep s.1 .pollSlot).map Prod.snd)) =
      some ((1, 3), some (1, 2, "seek"), some (.polled (.error "seek"))) := rfl

end CollideOScope.Video
