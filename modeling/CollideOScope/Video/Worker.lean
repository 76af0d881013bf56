import CollideOScope.Video.Mailbox

/-!
# The decoder and its worker

Each label is one atomic action: a locked section, a store of its holder, or a
load of the worker.  The host asks and polls on one thread; anybody may stop.
-/

namespace CollideOScope.Video

open Nat

variable {P M : Type}

inductive WorkerPhase (P M : Type)
  | idle
  /-- Before the first check. -/
  | received (work : Work)
  | firstCheck (work : Work)
  /-- Before a stale command is counted. -/
  | dropping (work : Work)
  | decoding (work : Work)
  /-- Before the second check. -/
  | decoded (work : Work) (outcome : DecodeOutcome P M)
  | secondCheck (work : Work) (outcome : DecodeOutcome P M)
  | checked (work : Work) (outcome : DecodeOutcome P M)
      (generationIsCurrent : Bool)
  | epochCheck (work : Work) (outcome : DecodeOutcome P M)
      (generationIsCurrent : Bool)
  /-- Before the frame slot is locked. -/
  | completing (work : Work) (outcome : DecodeOutcome P M)
      (generationIsCurrent epochIsLatest : Bool)
  | exited

def WorkerPhase.work? : WorkerPhase P M → Option Work
  | .idle | .exited => none
  | .received work | .firstCheck work | .dropping work | .decoding work
  | .decoded work _ | .secondCheck work _ | .checked work _ _
  | .epochCheck work _ _ | .completing work _ _ _ => some work

/-- A bound on the actions until the worker is idle or has exited, and one to
exit. -/
def WorkerPhase.remaining : WorkerPhase P M → ℕ
  | .exited => 0
  | .idle => 1
  | .dropping _ | .completing .. => 2
  | .epochCheck .. => 3
  | .checked .. => 4
  | .secondCheck .. => 5
  | .decoded .. => 6
  | .decoding _ => 7
  | .firstCheck _ => 8
  | .received _ => 9

/-- What the worker may do: its next action, the end of a decode, or a panic of
the decoder. -/
inductive WorkerAction (P M : Type)
  | advance
  | decode (outcome : DecodeOutcome P M)
  | panic

inductive HostPhase
  | idle
  /-- The generation has been loaded. -/
  | polling (currentGeneration : ℕ)
  /-- There was neither a frame nor an error of a command. -/
  | checkingHealth
  deriving DecidableEq

/-- A decoder, its worker and the host's own fields. -/
structure ThreadedDecoder (P M : Type) where
  mailbox : DecodeCommandMailbox
  critical : Critical
  shared : SharedState P M
  worker : WorkerPhase P M
  host : HostPhase
  consumedFrames : ℕ
  (consumedSourceGeneration consumedLoopGeneration failureRevisionReported : ℕ)

namespace ThreadedDecoder

def opened (seed : DecodedFrame P M) : ThreadedDecoder P M where
  mailbox := .new
  critical := .free
  shared := .healthyWithSeed seed
  worker := .idle
  host := .idle
  consumedFrames := 0
  consumedSourceGeneration := 0
  consumedLoopGeneration := 0
  failureRevisionReported := 0

def receive (queued : QueuedCommand) : WorkerPhase P M :=
  match queued.command with
  | .stop => .exited
  | .select generation targetSeconds =>
    .received
      { generation
        targetSeconds
        epoch := queued.epoch
        previousAcceptedCodecIdentity := queued.previousAcceptedCodecIdentity
        preparedSeed := queued.preparedSeed
        continuous := queued.continuous }

/-- `recv`, when the lock is free and a command waits. -/
def recv (decoder : ThreadedDecoder P M) : Option (ThreadedDecoder P M) :=
  match decoder.critical, decoder.mailbox.state.pending with
  | .free, some queued =>
    some { decoder with
      mailbox := { decoder.mailbox with state := { decoder.mailbox.state with pending := none } }
      worker := receive queued }
  | _, _ => none

/-- The next action of the worker in `run_decode_commands`. -/
def advance [CodecMotion M] (decoder : ThreadedDecoder P M) : Option (ThreadedDecoder P M) :=
  let mailbox := decoder.mailbox
  match decoder.worker with
  | .idle => decoder.recv
  | .received work =>
    some { decoder with worker := if mailbox.stopped then .dropping work else .firstCheck work }
  | .firstCheck work =>
    some { decoder with
      worker :=
        if mailbox.currentGeneration = work.generation then .decoding work
        else .dropping work }
  | .dropping _ =>
    some { decoder with
      shared := decoder.shared.dropStaleCommand
      worker := .idle }
  | .decoding _ => none
  | .decoded work outcome =>
    some { decoder with
      worker :=
        if mailbox.stopped then .checked work outcome false
        else .secondCheck work outcome }
  | .secondCheck work outcome =>
    some { decoder with
      worker := .checked work outcome (decide (mailbox.currentGeneration = work.generation)) }
  | .checked work outcome generationIsCurrent =>
    some { decoder with
      worker :=
        if mailbox.stopped then .completing work outcome generationIsCurrent false
        else .epochCheck work outcome generationIsCurrent }
  | .epochCheck work outcome generationIsCurrent =>
    some { decoder with
      worker :=
        .completing work outcome generationIsCurrent (decide (mailbox.currentEpoch = work.epoch)) }
  | .completing work outcome generationIsCurrent epochIsLatest =>
    some { decoder with
      shared := decoder.shared.complete work outcome generationIsCurrent epochIsLatest
      worker := .idle }
  | .exited => none

def workerStep [CodecMotion M] (decoder : ThreadedDecoder P M) :
    WorkerAction P M → Option (ThreadedDecoder P M)
  | .advance => decoder.advance
  | .decode outcome =>
    match decoder.worker with
    | .decoding work => some { decoder with worker := .decoded work outcome }
    | _ => none
  | .panic =>
    match decoder.worker with
    | .decoding _ =>
      some { decoder with
        shared := decoder.shared.setFailed "Decode worker panicked unexpectedly"
        worker := .exited }
    | _ => none

theorem complete_failure [CodecMotion M] (shared : SharedState P M) (work : Work)
    (outcome : DecodeOutcome P M) (generationIsCurrent epochIsLatest : Bool) :
    (shared.complete work outcome generationIsCurrent epochIsLatest).failure = shared.failure := by
  cases generationIsCurrent with
  | false => rfl
  | true =>
    cases outcome with
    | ok frame | superseded => rfl
    | failed error => cases epochIsLatest <;> rfl

theorem setFailed_failure (shared : SharedState P M) (error : String) :
    (shared.setFailed error).failure.isSome := by
  rw [SharedState.setFailed]
  split_ifs with hfail
  · exact hfail
  · rfl

theorem workerStep_cases [CodecMotion M] {s t : ThreadedDecoder P M}
    {action : WorkerAction P M} (h : s.workerStep action = some t) :
    (s.worker = .idle ∧ s.critical = .free ∧
        ∃ queued, s.mailbox.state.pending = some queued ∧
          t = { s with
            mailbox := { s.mailbox with state := { s.mailbox.state with pending := none } }
            worker := receive queued }) ∨
      ∃ work shared worker,
        s.worker.work? = some work ∧ t = { s with shared, worker } ∧
          (worker.work? = some work ∨ worker.work? = none) ∧
          (worker = .exited → shared.failure.isSome) ∧
          (s.shared.failure.isSome → shared.failure.isSome) ∧
          worker.remaining < s.worker.remaining := by
  cases action with
  | advance =>
    cases hworker : s.worker with simp only [workerStep, advance, hworker] at h
    | idle =>
      unfold recv at h
      split at h
      · rename_i queued hcrit hpend
        cases h
        exact .inl ⟨rfl, hcrit, queued, hpend, rfl⟩
      · cases h
    | received work | firstCheck work | decoded work outcome
    | checked work outcome generationIsCurrent =>
      cases h
      refine .inr ⟨work, _, _, rfl, rfl, ?_, ?_, id, ?_⟩ <;>
        split_ifs <;> simp [WorkerPhase.work?, WorkerPhase.remaining]
    | dropping work =>
      cases h
      exact .inr ⟨work, _, _, rfl, rfl, .inr rfl, nofun, id, lt_succ_self _⟩
    | decoding work | exited => cases h
    | secondCheck work outcome
    | epochCheck work outcome generationIsCurrent =>
      cases h
      exact .inr ⟨work, _, _, rfl, rfl, .inl rfl, nofun, id, lt_succ_self _⟩
    | completing work outcome generationIsCurrent epochIsLatest =>
      cases h
      refine .inr ⟨work, _, _, rfl, rfl, .inr rfl, nofun, ?_, lt_succ_self _⟩
      rw [complete_failure]
      exact id
  | decode outcome =>
    simp only [workerStep] at h
    split at h
    · rename_i work hworker
      cases h
      rw [hworker]
      exact .inr ⟨work, _, _, rfl, rfl, .inl rfl, nofun, id, lt_succ_self _⟩
    · cases h
  | panic =>
    simp only [workerStep] at h
    split at h
    · rename_i work hworker
      cases h
      rw [hworker]
      have hfail := setFailed_failure s.shared "Decode worker panicked unexpectedly"
      exact .inr ⟨work, _, _, rfl, rfl, .inr rfl, fun _ => hfail, fun _ => hfail, succ_pos _⟩
    · cases h

def ready (frame : DecodedFrame P M) (loopsAdvanced : ℕ) : ReadyFrame P M where
  picture := frame.picture
  codecMotion := frame.codecMotion
  loopsAdvanced
  sourceGeneration := frame.sourceGeneration
  pts := frame.pts
  codecIdentity := frame.codecIdentity

def consume (decoder : ThreadedDecoder P M) (frame : DecodedFrame P M) :
    ThreadedDecoder P M × ReadyFrame P M :=
  let decoder := { decoder with
    shared := { decoder.shared with latest := none }
    host := .idle
    consumedFrames := saturatingAddU64 decoder.consumedFrames 1 }
  if frame.sourceGeneration ≠ decoder.consumedSourceGeneration then
    ({ decoder with
        consumedSourceGeneration := frame.sourceGeneration
        consumedLoopGeneration := frame.loopGeneration },
      ready frame 0)
  else
    ({ decoder with
        consumedLoopGeneration := max decoder.consumedLoopGeneration frame.loopGeneration },
      ready frame (frame.loopGeneration - decoder.consumedLoopGeneration))

abbrev PollResult (P M : Type) := Except String (Option (ReadyFrame P M))

/-- The locked part of `try_next_ready_frame_result_at`; there is no result yet
when the health is still to be checked. -/
def pollSlot (decoder : ThreadedDecoder P M) (currentGeneration : ℕ) :
    ThreadedDecoder P M × Option (PollResult P M) :=
  let shared := decoder.shared.discardStale currentGeneration
  match shared.latest with
  | some frame =>
    let (decoder, frame) := { decoder with shared }.consume frame
    (decoder, some (.ok (some frame)))
  | none =>
    match shared.commandError with
    | some (_, _, error) =>
      ({ decoder with
          shared := { shared with commandError := none }
          host := .idle },
        some (.error error))
    | none => ({ decoder with shared, host := .checkingHealth }, none)

/-- `terminal_error_once`, at the end of a poll. -/
def pollHealth (decoder : ThreadedDecoder P M) : ThreadedDecoder P M × PollResult P M :=
  match decoder.shared.failure with
  | none => ({ decoder with host := .idle }, .ok none)
  | some error =>
    if decoder.shared.healthRevision = decoder.failureRevisionReported then
      ({ decoder with host := .idle }, .ok none)
    else
      ({ decoder with
          host := .idle
          failureRevisionReported := decoder.shared.healthRevision },
        .error error)

end ThreadedDecoder

inductive DecoderLabel (P M : Type)
  | select (request : SelectRequest)
  | stop | store | pollBegin | pollSlot | pollHealth
  | worker (action : WorkerAction P M)

inductive DecoderOutput (P M : Type)
  | nothing
  | selected (result : Except String Bool)
  | polled (result : ThreadedDecoder.PollResult P M)

def Critical.ofHost : Critical → Bool
  | .select .. | .selectEpoch _ => true
  | _ => false

def decoderStep [CodecMotion M] (s : ThreadedDecoder P M) :
    DecoderLabel P M → Option (ThreadedDecoder P M × DecoderOutput P M)
  | .select request =>
    if s.host = .idle ∧ s.critical = .free then
      let (mailbox, critical, result) := s.mailbox.select request
      some ({ s with mailbox, critical }, .selected result)
    else none
  | .stop =>
    if s.critical = .free then
      let (mailbox, critical) := s.mailbox.stop
      some ({ s with mailbox, critical }, .nothing)
    else none
  | .store =>
    (s.mailbox.store s.critical).map fun (mailbox, critical) =>
      ({ s with mailbox, critical }, .nothing)
  | .pollBegin =>
    if s.host = .idle ∧ s.critical.ofHost = false then
      some ({ s with host := .polling s.mailbox.currentGeneration }, .nothing)
    else none
  | .pollSlot =>
    match s.host with
    | .polling currentGeneration =>
      let (decoder, result) := s.pollSlot currentGeneration
      some (decoder, result.elim .nothing .polled)
    | _ => none
  | .pollHealth =>
    match s.host with
    | .checkingHealth =>
      let (decoder, result) := s.pollHealth
      some (decoder, .polled result)
    | _ => none
  | .worker action => (s.workerStep action).map fun decoder => (decoder, .nothing)

inductive DecoderMove [CodecMotion M] (s : ThreadedDecoder P M) :
    DecoderLabel P M → ThreadedDecoder P M → DecoderOutput P M → Prop
  | select (request : SelectRequest) (hidle : s.host = .idle)
      (hfree : s.critical = .free) :
      DecoderMove s (.select request)
        { s with
          mailbox := (s.mailbox.select request).1
          critical := (s.mailbox.select request).2.1 }
        (.selected (s.mailbox.select request).2.2)
  | stop (hfree : s.critical = .free) :
      DecoderMove s .stop { s with mailbox := s.mailbox.stop.1, critical := s.mailbox.stop.2 }
        .nothing
  | store {mailbox : DecodeCommandMailbox} {critical : Critical}
      (hstore : s.mailbox.store s.critical = some (mailbox, critical)) :
      DecoderMove s .store { s with mailbox, critical } .nothing
  | pollBegin (hfree : s.critical.ofHost = false) :
      DecoderMove s .pollBegin { s with host := .polling s.mailbox.currentGeneration } .nothing
  | pollSlot {generation : ℕ} (hpolling : s.host = .polling generation) :
      DecoderMove s .pollSlot (s.pollSlot generation).1
        ((s.pollSlot generation).2.elim .nothing .polled)
  | pollHealth : DecoderMove s .pollHealth s.pollHealth.1 (.polled s.pollHealth.2)
  | worker {action : WorkerAction P M} {t : ThreadedDecoder P M}
      (hworker : s.workerStep action = some t) :
      DecoderMove s (.worker action) t .nothing

theorem decoderMove [CodecMotion M] {s t : ThreadedDecoder P M} {label : DecoderLabel P M}
    {output : DecoderOutput P M} (hstep : decoderStep s label = some (t, output)) :
    DecoderMove s label t output := by
  cases label with simp only [decoderStep] at hstep
  | select request =>
    split_ifs at hstep with hguard
    cases hstep
    exact .select request hguard.1 hguard.2
  | stop =>
    split_ifs at hstep with hfree
    cases hstep
    exact .stop hfree
  | store =>
    simp only [Option.map_eq_some_iff, Prod.mk.injEq] at hstep
    obtain ⟨⟨mailbox, critical⟩, hstore, rfl, rfl⟩ := hstep
    exact .store hstore
  | pollBegin =>
    split_ifs at hstep with hguard
    cases hstep
    exact .pollBegin hguard.2
  | pollSlot =>
    split at hstep
    · cases hstep
      exact .pollSlot ‹_›
    · cases hstep
  | pollHealth =>
    split at hstep <;> cases hstep
    exact .pollHealth
  | worker action =>
    simp only [Option.map_eq_some_iff, Prod.mk.injEq] at hstep
    obtain ⟨decoder, hworker, rfl, rfl⟩ := hstep
    exact .worker hworker

/-- The decoder with its worker, from when it is opened. -/
def decoderMachine (P M : Type) [CodecMotion M] :
    Machine (ThreadedDecoder P M) (DecoderLabel P M) where
  start s := ∃ seed, s = .opened seed
  step s label := (decoderStep s label).map Prod.fst

end CollideOScope.Video
