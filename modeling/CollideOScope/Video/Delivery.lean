import CollideOScope.Video.Balance

/-!
# The newest desire is served

The copies of the mailbox outside its lock follow the state inside it, so a
poll that has loaded the generation holds the newest one.  A selection that no
other replaces is found current at both checks.
-/

namespace CollideOScope.Video

variable {P M : Type}

/-- The atomics, the worker and the host agree with the locked state. -/
structure MailboxSound (s : ThreadedDecoder P M) : Prop where
  generation : ∀ generation epoch, s.critical = .select generation epoch →
    s.mailbox.state.generation = generation
  current : (∀ generation epoch, s.critical ≠ .select generation epoch) →
    s.mailbox.currentGeneration = s.mailbox.state.generation
  polling : ∀ generation, s.host = .polling generation →
    generation = s.mailbox.state.generation ∧ s.critical.ofHost = false
  notStopped : s.mailbox.state.stopped = false →
    s.mailbox.stopped = false ∧ (∀ epoch, s.critical ≠ .stop epoch)
  stopWaits : s.mailbox.state.stopped → s.worker ≠ .exited →
    ∃ queued, s.mailbox.state.pending = some queued ∧ queued.command = .stop
  exited : s.worker = .exited →
    s.mailbox.state.pending = none ∧ s.mailbox.state.stopped ∨ s.shared.failure.isSome
  workEpoch : ∀ work, s.worker.work? = some work → work.epoch ≤ s.mailbox.state.epoch
  pendingEpoch : ∀ queued, s.mailbox.state.pending = some queued →
    queued.epoch = s.mailbox.state.epoch ∧ (queued.command = .stop → s.mailbox.state.stopped)

namespace MailboxSound

theorem opened (seed : DecodedFrame P M) : MailboxSound (.opened seed) where
  generation _ _ h := nomatch h
  current _ := rfl
  polling _ h := nomatch h
  notStopped _ := ⟨rfl, nofun⟩
  stopWaits h := nomatch h
  exited h := nomatch h
  workEpoch _ h := nomatch h
  pendingEpoch _ h := nomatch h

variable {s t : ThreadedDecoder P M} (h : MailboxSound s)
include h

theorem currentGeneration (hhost : s.critical.ofHost = false) :
    s.mailbox.currentGeneration = s.mailbox.state.generation := by
  apply h.current
  intro generation epoch hcrit
  rw [hcrit] at hhost
  cases hhost

theorem select (hidle : s.host = .idle) (hfree : s.critical = .free) (request : SelectRequest) :
    MailboxSound { s with
      mailbox := (s.mailbox.select request).1
      critical := (s.mailbox.select request).2.1 } := by
  obtain ⟨error, hsel⟩ | ⟨-, hsel⟩ | ⟨hstop, -, -, hsel⟩ := s.mailbox.select_cases request
  · rw [hsel]
    simpa only [← hfree] using h
  · rw [hsel, ← hfree]
    exact ⟨h.generation, h.current, h.polling, h.notStopped, h.stopWaits,
      h.exited, h.workEpoch, h.pendingEpoch⟩
  · rw [hsel]
    refine ⟨?_, ?_, ?_, ?_, ?_, ?_, ?_, ?_⟩
    · intro generation epoch hcrit
      exact (Critical.select.inj hcrit).1
    · intro hcrit
      exact absurd rfl (hcrit _ _)
    · intro generation hpoll
      rw [hidle] at hpoll
      cases hpoll
    · intro _
      refine ⟨?_, nofun⟩
      have hstore : (s.mailbox.countRequest request).stopped = s.mailbox.stopped := by
        simp only [DecodeCommandMailbox.countRequest]
        split <;> split <;> (try split) <;> (try split) <;> rfl
      exact hstore.trans (h.notStopped hstop).1
    · intro hnext
      rw [hstop] at hnext
      cases hnext
    · intro hexited
      obtain ⟨-, hnext⟩ | hfail := h.exited hexited
      · rw [hstop] at hnext
        cases hnext
      · exact .inr hfail
    · intro work hwork
      exact (h.workEpoch work hwork).trans (Nat.le_succ _)
    · intro queued hqueued
      cases hqueued
      exact ⟨rfl, nofun⟩

theorem stop (hepoch : s.mailbox.state.epoch ≤ u64Max) (hfree : s.critical = .free) :
    MailboxSound { s with mailbox := s.mailbox.stop.1, critical := s.mailbox.stop.2 } := by
  obtain ⟨-, hstop⟩ | ⟨hstopped, overwrites, hstop⟩ := s.mailbox.stop_cases
  · rw [hstop]
    simpa only [← hfree] using h
  · rw [hstop]
    refine ⟨nofun, ?_, ?_, nofun, ?_, ?_, ?_, ?_⟩
    · intro _
      apply h.current
      rw [hfree]
      exact nofun
    · intro generation hpoll
      exact ⟨(h.polling generation hpoll).1, rfl⟩
    · intro _ _
      exact ⟨_, rfl, rfl⟩
    · intro hexited
      obtain ⟨-, hnext⟩ | hfail := h.exited hexited
      · rw [hstopped] at hnext
        cases hnext
      · exact .inr hfail
    · intro work hwork
      have hadd : s.mailbox.state.epoch ≤ saturatingAddU64 s.mailbox.state.epoch 1 := by
        rw [saturatingAddU64]
        omega
      exact (h.workEpoch work hwork).trans hadd
    · intro queued hqueued
      cases hqueued
      exact ⟨rfl, fun _ => rfl⟩

theorem store {mailbox : DecodeCommandMailbox} {critical : Critical}
    (hstore : s.mailbox.store s.critical = some (mailbox, critical)) :
    MailboxSound { s with mailbox, critical } := by
  have hpoll : ∀ generation, s.host = .polling generation → s.critical.ofHost = false :=
    fun generation hhost => (h.polling generation hhost).2
  cases hcrit : s.critical with rw [hcrit, DecodeCommandMailbox.store] at hstore
  | free => cases hstore
  | select generation epoch =>
    cases hstore
    refine ⟨by simp, ?_, ?_, ?_, h.stopWaits, h.exited, h.workEpoch, h.pendingEpoch⟩
    · intro _
      exact (h.generation generation epoch hcrit).symm
    · intro polled hhost
      have hfree := hpoll polled hhost
      rw [hcrit] at hfree
      cases hfree
    · intro hstop
      exact ⟨(h.notStopped hstop).1, by simp⟩
  | selectEpoch epoch | stopEpoch epoch | stop epoch =>
    cases hstore
    refine ⟨by simp, ?_, ?_, ?_, h.stopWaits, h.exited, h.workEpoch, h.pendingEpoch⟩
    · intro _
      apply h.current
      rw [hcrit]
      simp
    · intro polled hhost
      exact ⟨(h.polling polled hhost).1, rfl⟩
    · intro hstop
      obtain ⟨hopen, hnot⟩ := h.notStopped hstop
      exact ⟨by simp_all, by simp⟩

theorem poll (hbox : t.mailbox = s.mailbox) (hcrit : t.critical = s.critical)
    (hworker : t.worker = s.worker) (hfail : t.shared.failure = s.shared.failure)
    (hhost : ∀ generation, t.host ≠ .polling generation) : MailboxSound t := by
  refine ⟨?_, ?_, ?_, ?_, ?_, ?_, ?_, ?_⟩
  · rw [hbox, hcrit]
    exact h.generation
  · rw [hbox, hcrit]
    exact h.current
  · intro generation hpoll
    exact absurd hpoll (hhost generation)
  · rw [hbox, hcrit]
    exact h.notStopped
  · rw [hbox, hworker]
    exact h.stopWaits
  · rw [hbox, hworker, hfail]
    exact h.exited
  · rw [hbox, hworker]
    exact h.workEpoch
  · rw [hbox]
    exact h.pendingEpoch

open ThreadedDecoder (receive)

theorem workerStep [CodecMotion M] {action : WorkerAction P M}
    (hstep : s.workerStep action = some t) : MailboxSound t := by
  obtain ⟨hidle, hfree, queued, hpend, rfl⟩ |
      ⟨work, shared, worker, hwork, rfl, hnext, hexited, hfail, -⟩ :=
    ThreadedDecoder.workerStep_cases hstep
  · obtain ⟨hepoch, hstop⟩ := h.pendingEpoch queued hpend
    refine ⟨h.generation, h.current, h.polling, h.notStopped, ?_, ?_, ?_, nofun⟩
    · intro hstopped hrun
      obtain ⟨waiting, hwait, hcmd⟩ := h.stopWaits hstopped (by simp [hidle])
      rw [hpend] at hwait
      cases hwait
      simp [receive, hcmd] at hrun
    · intro hexited
      refine .inl ⟨rfl, hstop ?_⟩
      cases hcmd : queued.command with
      | select generation targetSeconds => simp [receive, hcmd] at hexited
      | stop => rfl
    · intro work hwork
      cases hcmd : queued.command with
      | select generation targetSeconds =>
        simp only [receive, hcmd, WorkerPhase.work?, Option.some.injEq] at hwork
        rw [← hwork]
        exact hepoch.le
      | stop => simp [receive, hcmd, WorkerPhase.work?] at hwork
  · refine ⟨h.generation, h.current, h.polling, h.notStopped, ?_, ?_, ?_, h.pendingEpoch⟩
    · intro hstopped _
      apply h.stopWaits hstopped
      intro hexit
      rw [hexit] at hwork
      cases hwork
    · intro hexit
      exact .inr (hexited hexit)
    · intro other hother
      obtain hsame | hnone := hnext
      · rw [hsame] at hother
        cases hother
        exact h.workEpoch work hwork
      · rw [hnone] at hother
        cases hother

end MailboxSound

namespace ThreadedDecoder

variable (s : ThreadedDecoder P M)

theorem discardStale_failure (shared : SharedState P M) (generation : ℕ) :
    (shared.discardStale generation).failure = shared.failure := by
  simp only [SharedState.discardStale]
  split_ifs <;> rfl

theorem pollSlot_frame (generation : ℕ) :
    let next := (s.pollSlot generation).1
    next.mailbox = s.mailbox ∧ next.critical = s.critical ∧
      next.worker = s.worker ∧ next.shared.failure = s.shared.failure ∧
        ∀ polled, next.host ≠ .polling polled := by
  intro next
  have hfail := discardStale_failure s.shared generation
  simp only [next, pollSlot]
  split
  · simp only [consume]
    split <;> exact ⟨rfl, rfl, rfl, hfail, by simp⟩
  · split <;> exact ⟨rfl, rfl, rfl, hfail, by simp⟩

theorem pollHealth_frame :
    let next := s.pollHealth.1
    next.mailbox = s.mailbox ∧ next.critical = s.critical ∧
      next.worker = s.worker ∧ next.shared = s.shared ∧ ∀ polled, next.host ≠ .polling polled := by
  intro next
  simp only [next, pollHealth]
  split
  · exact ⟨rfl, rfl, rfl, rfl, by simp⟩
  · split <;> exact ⟨rfl, rfl, rfl, rfl, by simp⟩

theorem pollSlot_ready {generation : ℕ} {ready : ReadyFrame P M}
    (h : (s.pollSlot generation).2 = some (.ok (some ready))) :
    ready.sourceGeneration = generation := by
  simp only [pollSlot] at h
  split at h
  · rename_i frame hlatest
    obtain ⟨hgen, -⟩ := SharedState.discardStale_latest hlatest
    simp only [consume] at h
    split at h <;> (cases h; exact hgen)
  · split at h <;> cases h

theorem pollSlot_of_latest {frame : DecodedFrame P M} (h : s.shared.latest = some frame) :
    ∃ loops, (s.pollSlot frame.sourceGeneration).2 = some (.ok (some (ready frame loops))) := by
  have hlatest := SharedState.discardStale_of_current h
  simp only [pollSlot, hlatest, consume]
  split <;> exact ⟨_, rfl⟩

theorem pollHealth_ne_ready (ready : ReadyFrame P M) : s.pollHealth.2 ≠ .ok (some ready) := by
  rw [pollHealth]
  split
  · simp
  · split <;> simp

end ThreadedDecoder

structure DecoderSound (s : ThreadedDecoder P M) : Prop where
  balanced : Balanced s
  mailbox : MailboxSound s

variable {label : DecoderLabel P M}

theorem DecoderSound.step [CodecMotion M] {s t : ThreadedDecoder P M}
    (h : DecoderSound s) {output : DecoderOutput P M}
    (hstep : decoderStep s label = some (t, output)) : DecoderSound t := by
  refine ⟨h.balanced.step hstep, ?_⟩
  cases decoderMove hstep with
  | select request hidle hfree => exact h.mailbox.select hidle hfree request
  | stop hfree => exact h.mailbox.stop h.balanced.epoch_le hfree
  | store hstore => exact h.mailbox.store hstore
  | pollBegin hfree =>
    have hloaded := h.mailbox.currentGeneration hfree
    refine ⟨h.mailbox.generation, h.mailbox.current, ?_, h.mailbox.notStopped, h.mailbox.stopWaits,
      h.mailbox.exited, h.mailbox.workEpoch, h.mailbox.pendingEpoch⟩
    intro generation hpoll
    cases hpoll
    exact ⟨hloaded, hfree⟩
  | pollSlot _ =>
    obtain ⟨hbox, hcrit, hworker, hfail, hhost⟩ := s.pollSlot_frame _
    exact h.mailbox.poll hbox hcrit hworker hfail hhost
  | pollHealth =>
    obtain ⟨hbox, hcrit, hworker, hshared, hhost⟩ := s.pollHealth_frame
    exact h.mailbox.poll hbox hcrit hworker (by rw [hshared]) hhost
  | worker hworker => exact h.mailbox.workerStep hworker

theorem decoderMachine_step [CodecMotion M] {s t : ThreadedDecoder P M} :
    (decoderMachine P M).step s label = some t ↔
      ∃ output, decoderStep s label = some (t, output) := by
  simp [decoderMachine, Option.map_eq_some_iff]

theorem reachable_sound [CodecMotion M] {s : ThreadedDecoder P M}
    (h : (decoderMachine P M).Reachable s) : DecoderSound s := by
  apply h.invariant
  · rintro _ ⟨seed, rfl⟩
    exact ⟨.opened seed, .opened seed⟩
  · intro s label t hs hstep
    obtain ⟨output, hstep⟩ := decoderMachine_step.mp hstep
    exact hs.step hstep

/-!
## After a selection and after a stop

An accepted selection that no other action replaces waits until the worker
takes it, passes both checks, and its frame waits until the host polls.
-/

def DecoderLabel.asks : DecoderLabel P M → Bool
  | .select _ | .stop => true
  | _ => false

def DecoderLabel.isPollSlot : DecoderLabel P M → Bool
  | .pollSlot => true
  | _ => false

/-- The worker has found its selection out of date. -/
def WorkerPhase.refused : WorkerPhase P M → Bool
  | .dropping _ => true
  | .checked _ _ generationIsCurrent | .epochCheck _ _ generationIsCurrent
  | .completing _ _ generationIsCurrent _ => !generationIsCurrent
  | _ => false

/-- The selection that has been decoded, and what came of it. -/
def WorkerPhase.result? : WorkerPhase P M → Option (Work × DecodeOutcome P M)
  | .decoded work outcome | .secondCheck work outcome
  | .checked work outcome _ | .epochCheck work outcome _
  | .completing work outcome _ _ => some (work, outcome)
  | _ => none

def DecodeCommandMailbox.work (mailbox : DecodeCommandMailbox)
    (request : SelectRequest) : Work where
  generation := request.generation
  targetSeconds := request.targetSeconds
  epoch := mailbox.state.epoch + 1
  previousAcceptedCodecIdentity :=
    request.previousAcceptedCodecIdentity.filter fun identity =>
      identity.sourceGeneration = request.generation
  preparedSeed := request.preparedSeed
  continuous := decide (request.generation = mailbox.state.generation)

theorem WorkerPhase.work?_of_result? {worker : WorkerPhase P M} {work : Work}
    {outcome : DecodeOutcome P M} (h : worker.result? = some (work, outcome)) :
    worker.work? = some work := by
  cases worker <;>
    simp only [WorkerPhase.result?, Option.some.injEq, Prod.mk.injEq, reduceCtorEq] at h <;>
    (obtain ⟨rfl, -⟩ := h; rfl)

theorem workerStep_not_refused [CodecMotion M] {s t : ThreadedDecoder P M}
    {action : WorkerAction P M} {work : Work} (hstep : s.workerStep action = some t)
    (hstop : s.mailbox.stopped = false) (hcur : s.mailbox.currentGeneration = work.generation)
    (hwork : s.worker.work? = some work) (h : s.worker.refused = false) :
    t.worker.refused = false := by
  cases action with
  | advance =>
    cases hworker : s.worker <;> rw [hworker] at hwork h <;>
      simp only [WorkerPhase.work?, WorkerPhase.refused, Option.some.injEq,
        reduceCtorEq] at hwork h <;>
      simp only [ThreadedDecoder.workerStep, ThreadedDecoder.advance, hworker,
        hstop, Option.some.injEq, Bool.false_eq_true, if_false,
        reduceCtorEq] at hstep <;>
      subst hstep <;> simp [WorkerPhase.refused, hcur, hwork, h]
  | decode outcome | panic =>
    simp only [ThreadedDecoder.workerStep] at hstep
    split at hstep <;> cases hstep
    rfl

theorem advance_result [CodecMotion M] {s : ThreadedDecoder P M} {work : Work}
    {frame : DecodedFrame P M} (hres : s.worker.result? = some (work, .ok frame))
    (h : s.worker.refused = false) :
    ∃ t, s.advance = some t ∧ t.mailbox = s.mailbox ∧ t.critical = s.critical ∧
      t.host = s.host ∧
      (t.worker.result? = some (work, .ok frame) ∧ t.worker.remaining < s.worker.remaining ∨
        t.worker = .idle ∧ t.shared.latest = some (frame.stamped work)) := by
  cases hworker : s.worker <;> rw [hworker] at hres h <;>
    simp only [WorkerPhase.result?, WorkerPhase.refused, Option.some.injEq,
      Prod.mk.injEq, Bool.not_eq_false', reduceCtorEq] at hres h
  all_goals
    obtain ⟨rfl, rfl⟩ := hres
    simp only [ThreadedDecoder.advance, hworker]
    refine ⟨_, rfl, rfl, rfl, rfl, ?_⟩
  case decoded | checked =>
    left
    split_ifs <;> exact ⟨rfl, by simp [WorkerPhase.remaining]⟩
  case secondCheck | epochCheck => exact .inl ⟨rfl, Nat.lt_succ_self _⟩
  case completing =>
    right
    subst h
    exact ⟨rfl, rfl⟩

/-- The selection waits for the worker, or the worker has taken it and has not
refused it. -/
structure Serving (work : Work) (s : ThreadedDecoder P M) : Prop where
  generation : s.mailbox.state.generation = work.generation
  epoch : s.mailbox.state.epoch = work.epoch
  stopped : s.mailbox.state.stopped = false
  phase :
    (∃ queued, s.mailbox.state.pending = some queued ∧
        ThreadedDecoder.receive (P := P) (M := M) queued = .received work ∧
        ∀ other, s.worker.work? = some other → other.epoch < work.epoch) ∨
      s.mailbox.state.pending = none ∧ s.critical = .free ∧
        s.worker.refused = false ∧
        ∀ other, s.worker.work? = some other → other = work

namespace Serving

theorem accepted {s : ThreadedDecoder P M} (hs : MailboxSound s)
    {request : SelectRequest} (h : (s.mailbox.select request).2.2 = .ok true) :
    Serving (s.mailbox.work request) { s with
      mailbox := (s.mailbox.select request).1
      critical := (s.mailbox.select request).2.1 } := by
  obtain ⟨error, hsel⟩ | ⟨-, hsel⟩ | ⟨hstop, -, -, hsel⟩ := s.mailbox.select_cases request
  · rw [hsel] at h
    cases h
  · rw [hsel] at h
    cases h
  · rw [hsel]
    refine ⟨rfl, rfl, hstop, .inl ⟨_, rfl, rfl, ?_⟩⟩
    intro other hother
    exact Nat.lt_succ_of_le (hs.workEpoch other hother)

variable {work : Work} {s t : ThreadedDecoder P M} (h : Serving work s)
include h

theorem frame (hbox : t.mailbox = s.mailbox)
    (hcrit : t.critical = s.critical) (hworker : t.worker = s.worker) :
    Serving work t := by
  refine ⟨?_, ?_, ?_, ?_⟩
  · rw [hbox]
    exact h.generation
  · rw [hbox]
    exact h.epoch
  · rw [hbox]
    exact h.stopped
  · rw [hbox, hcrit, hworker]
    exact h.phase

theorem store {mailbox : DecodeCommandMailbox} {critical : Critical}
    (hstore : s.mailbox.store s.critical = some (mailbox, critical)) :
    Serving work { s with mailbox, critical } := by
  have hst := DecodeCommandMailbox.store_state hstore
  refine ⟨?_, ?_, ?_, ?_⟩
  · rw [hst]
    exact h.generation
  · rw [hst]
    exact h.epoch
  · rw [hst]
    exact h.stopped
  · obtain hwait | ⟨-, hfree, -, -⟩ := h.phase
    · rw [hst]
      exact .inl hwait
    · rw [hfree, DecodeCommandMailbox.store] at hstore
      cases hstore

theorem workerStep [CodecMotion M] (hs : MailboxSound s)
    {action : WorkerAction P M} (hstep : s.workerStep action = some t) :
    Serving work t := by
  obtain ⟨-, hfree, queued, hpend, rfl⟩ |
      ⟨other, shared, worker, hother, rfl, hnext, -, -, -⟩ :=
    ThreadedDecoder.workerStep_cases hstep
  · refine ⟨h.generation, h.epoch, h.stopped, .inr ⟨rfl, hfree, ?_⟩⟩
    obtain ⟨waiting, hwait, hrecv, -⟩ | ⟨hnone, -⟩ := h.phase
    · rw [hpend] at hwait
      cases hwait
      rw [hrecv]
      refine ⟨rfl, ?_⟩
      intro other hother
      exact (Option.some.inj hother).symm
    · rw [hpend] at hnone
      cases hnone
  · refine ⟨h.generation, h.epoch, h.stopped, ?_⟩
    obtain ⟨queued, hpend, hrecv, hearl⟩ |
        ⟨hpend, hfree, href, hwork⟩ := h.phase
    · refine .inl ⟨queued, hpend, hrecv, ?_⟩
      intro later hlater
      apply hearl
      obtain hsame | hnone := hnext
      · rw [hsame] at hlater
        rw [hother, hlater]
      · rw [hnone] at hlater
        cases hlater
    · refine .inr ⟨hpend, hfree, ?_, ?_⟩
      · obtain rfl := hwork other hother
        have hcur : s.mailbox.currentGeneration = other.generation := by
          rw [← h.generation]
          apply hs.currentGeneration
          rw [hfree]
          rfl
        exact workerStep_not_refused hstep (hs.notStopped h.stopped).1 hcur hother href
      · intro later hlater
        apply hwork
        obtain hsame | hnone := hnext
        · rw [hsame] at hlater
          rw [hother, hlater]
        · rw [hnone] at hlater
          cases hlater

theorem step [CodecMotion M] (hs : MailboxSound s) {label : DecoderLabel P M}
    {output : DecoderOutput P M} (hasks : label.asks = false)
    (hstep : decoderStep s label = some (t, output)) : Serving work t := by
  cases decoderMove hstep with
  | select request _ _ | stop _ => cases hasks
  | store hstore => exact h.store hstore
  | pollBegin _ => exact h.frame rfl rfl rfl
  | pollSlot _ =>
    obtain ⟨hbox, hcrit, hworker, -, -⟩ := s.pollSlot_frame _
    exact h.frame hbox hcrit hworker
  | pollHealth =>
    obtain ⟨hbox, hcrit, hworker, -, -⟩ := s.pollHealth_frame
    exact h.frame hbox hcrit hworker
  | worker hworker => exact h.workerStep hs hworker

theorem not_refused (hwork : s.worker.work? = some work) : s.worker.refused = false := by
  obtain ⟨_, _, _, hearl⟩ | ⟨_, _, href, _⟩ := h.phase
  · exact absurd (hearl work hwork) (Nat.lt_irrefl _)
  · exact href

end Serving

structure Waiting [CodecMotion M] (work : Work) (frame : DecodedFrame P M)
    (s : ThreadedDecoder P M) : Prop where
  generation : s.mailbox.state.generation = work.generation
  pending : s.mailbox.state.pending = none
  critical : s.critical = .free
  worker : s.worker = .idle
  latest : s.shared.latest = some (frame.stamped work)

variable {output : DecoderOutput P M} {s t : ThreadedDecoder P M} {frame : DecodedFrame P M}

theorem Waiting.step [CodecMotion M] {work : Work} (h : Waiting work frame s)
    {label : DecoderLabel P M} (hasks : label.asks = false) (hslot : label.isPollSlot = false)
    (hstep : decoderStep s label = some (t, output)) : Waiting work frame t := by
  cases decoderMove hstep with
  | select request _ _ | stop _ => cases hasks
  | store hstore =>
    rw [h.critical, DecodeCommandMailbox.store] at hstore
    cases hstore
  | pollBegin _ => exact ⟨h.generation, h.pending, h.critical, h.worker, h.latest⟩
  | pollSlot _ => cases hslot
  | pollHealth =>
    obtain ⟨hbox, hcrit, hworker, hshared, -⟩ := s.pollHealth_frame
    refine ⟨?_, ?_, hcrit.trans h.critical, hworker.trans h.worker, ?_⟩
    · rw [hbox]
      exact h.generation
    · rw [hbox]
      exact h.pending
    · rw [hshared]
      exact h.latest
  | @worker action _ hworker =>
    have hnone : s.workerStep action = none := by
      cases action <;>
        simp [ThreadedDecoder.workerStep, ThreadedDecoder.advance,
          ThreadedDecoder.recv, h.worker, h.critical, h.pending]
    rw [hnone] at hworker
    cases hworker

theorem Waiting.poll [CodecMotion M] {work : Work} (h : Waiting work frame s) (hs : MailboxSound s)
    (hstep : decoderStep s .pollSlot = some (t, output)) :
    ∃ loops, output = .polled (.ok (some (ThreadedDecoder.ready (frame.stamped work) loops))) := by
  cases decoderMove hstep with
  | @pollSlot generation hpoll =>
    have hgen : generation = (frame.stamped work).sourceGeneration :=
      (hs.polling generation hpoll).1.trans h.generation
    obtain ⟨loops, hres⟩ := s.pollSlot_of_latest h.latest
    rw [hgen, hres]
    exact ⟨loops, rfl⟩

end CollideOScope.Video
