import CollideOScope.Video.Delivery

/-!
# What a decoder delivers

The results hold in every reachable state, whatever host, worker and whoever
stops the decoder do before and after.
-/

namespace CollideOScope.Video

open Nat DecodeCommandMailbox DecoderOutput ThreadedDecoder

variable {P M : Type}

/-- The stores that the holder of the lock still owes. -/
def Critical.remaining : Critical → ℕ
  | .free => 0
  | .selectEpoch _ | .stopEpoch _ => 1
  | .select .. | .stop _ => 2

/-- A bound on the actions until a stopped worker has exited. -/
def ThreadedDecoder.toStop (s : ThreadedDecoder P M) : ℕ :=
  s.worker.remaining + s.critical.remaining

def DecoderLabel.advances : DecoderLabel P M → Bool
  | .worker _ | .store => true
  | _ => false

variable {s t : ThreadedDecoder P M} {output : DecoderOutput P M} {label : DecoderLabel P M}

theorem state_step [CodecMotion M] (hstep : decoderStep s label = some (t, output)) :
    s.mailbox.state.generation ≤ t.mailbox.state.generation ∧
      (s.mailbox.state.stopped → t.mailbox.state.stopped) := by
  cases decoderMove hstep with
  | select request _ _ =>
    obtain ⟨error, hsel⟩ | ⟨-, hsel⟩ | ⟨-, hle, -, hsel⟩ := s.mailbox.select_cases request
    · rw [hsel]
      exact ⟨le_rfl, id⟩
    · rw [hsel]
      exact ⟨le_rfl, id⟩
    · rw [hsel]
      exact ⟨hle, id⟩
  | stop _ =>
    obtain ⟨-, hstop⟩ | ⟨-, overwrites, hstop⟩ := s.mailbox.stop_cases
    · rw [hstop]
      exact ⟨le_rfl, id⟩
    · rw [hstop]
      exact ⟨le_rfl, fun _ => rfl⟩
  | store hstore =>
    rw [store_state hstore]
    exact ⟨le_rfl, id⟩
  | pollBegin _ => exact ⟨le_rfl, id⟩
  | pollSlot _ =>
    rw [(s.pollSlot_frame _).1]
    exact ⟨le_rfl, id⟩
  | pollHealth =>
    rw [s.pollHealth_frame.1]
    exact ⟨le_rfl, id⟩
  | worker hworker =>
    obtain ⟨-, -, queued, -, rfl⟩ | ⟨_, shared, worker, -, rfl, -⟩ := workerStep_cases hworker
    · exact ⟨le_rfl, id⟩
    · exact ⟨le_rfl, id⟩

open ThreadedDecoder (toStop)

theorem stopped_step [CodecMotion M] (hs : MailboxSound s) (hstopped : s.mailbox.state.stopped)
    (hstep : decoderStep s label = some (t, output)) :
    (t.worker.work? = none ∨ t.worker.work? = s.worker.work?) ∧
      t.toStop + label.advances.toNat ≤ s.toStop := by
  cases decoderMove hstep with
  | select request _ _ =>
    obtain ⟨error, hsel⟩ | ⟨-, hsel⟩ | ⟨hnot, -⟩ := s.mailbox.select_cases request
    · rw [hsel]
      exact ⟨.inr rfl, le_add_right _ _⟩
    · rw [hsel]
      exact ⟨.inr rfl, le_add_right _ _⟩
    · rw [hstopped] at hnot
      cases hnot
  | stop _ =>
    obtain ⟨-, hstop⟩ | ⟨hnot, -⟩ := s.mailbox.stop_cases
    · rw [hstop]
      exact ⟨.inr rfl, le_add_right _ _⟩
    · rw [hstopped] at hnot
      cases hnot
  | store hstore =>
    refine ⟨.inr rfl, ?_⟩
    cases hcrit : s.critical <;>
      simp only [hcrit, store, Option.some.injEq, Prod.mk.injEq, reduceCtorEq] at hstore <;>
      obtain ⟨-, rfl⟩ := hstore <;>
      simp [toStop, hcrit, Critical.remaining, DecoderLabel.advances]
  | pollBegin _ => exact ⟨.inr rfl, le_rfl⟩
  | pollSlot _ =>
    obtain ⟨-, hcrit, hworker, -, -⟩ := s.pollSlot_frame _
    rw [toStop, hcrit, hworker]
    exact ⟨.inr rfl, le_rfl⟩
  | pollHealth =>
    obtain ⟨-, hcrit, hworker, -, -⟩ := s.pollHealth_frame
    rw [toStop, hcrit, hworker]
    exact ⟨.inr rfl, le_rfl⟩
  | worker hworker =>
    obtain ⟨hidle, hfree, queued, hpend, rfl⟩ |
        ⟨work, shared, worker, hwork, rfl, hnext, -, -, hremaining⟩ :=
      ThreadedDecoder.workerStep_cases hworker
    · obtain ⟨waiting, hwait, hcmd⟩ := hs.stopWaits hstopped (by simp [hidle])
      rw [hpend] at hwait
      cases hwait
      simp [ThreadedDecoder.receive, hcmd, WorkerPhase.work?, toStop, hidle, hfree,
        WorkerPhase.remaining, Critical.remaining, DecoderLabel.advances]
    · refine ⟨?_, ?_⟩
      · rw [hwork]
        exact hnext.symm
      · simp only [toStop, DecoderLabel.advances, Bool.toNat_true]
        omega

theorem stopped_enabled [CodecMotion M] (hs : MailboxSound s)
    (hstop : s.mailbox.state.stopped) (hrun : s.worker ≠ .exited) :
    ∃ label t output, label.advances ∧ decoderStep s label = some (t, output) := by
  cases hcrit : s.critical with
  | free =>
    obtain ⟨queued, hpend, -⟩ := hs.stopWaits hstop hrun
    cases hworker : s.worker with
    | exited => exact absurd hworker hrun
    | decoding work =>
      exact ⟨.worker (.decode .superseded), _, _, rfl,
        by simp only [decoderStep, workerStep, hworker]; rfl⟩
    | _ =>
      exact ⟨.worker .advance, _, _, rfl,
        by simp only [decoderStep, workerStep, advance, recv, hworker, hcrit, hpend]; rfl⟩
  | _ => exact ⟨.store, _, _, rfl, by simp only [decoderStep, hcrit, store]; rfl⟩

/-- A decoder that has been stopped while its worker was at `before`. -/
structure Stopping [CodecMotion M] (before : WorkerPhase P M) (s : ThreadedDecoder P M) : Prop where
  /-- No later selection is received. -/
  later : s.worker.work? = none ∨ s.worker.work? = before.work?
  /-- Something is left to do until the worker has exited. -/
  enabled : s.worker ≠ .exited → ∃ label t output, label.advances ∧
    decoderStep s label = some (t, output)
  /-- It gets less with each action of the worker and each store. -/
  variant : ∀ label t output, decoderStep s label = some (t, output) →
    t.toStop + label.advances.toNat ≤ s.toStop
  /-- The worker has received the stop, unless the decoder panicked. -/
  exited : s.worker = .exited → s.mailbox.state.pending = none ∨ s.shared.failure.isSome

variable {u : ThreadedDecoder P M}

theorem stopping [CodecMotion M] (hs : DecoderSound s)
    (hstop : decoderStep s .stop = some (t, output))
    (hrun : (decoderMachine P M).FreeRun t u) : Stopping s.worker u := by
  have hsound : DecoderSound t := hs.step hstop
  have hstopped : t.mailbox.state.stopped ∧ t.worker = s.worker := by
    cases decoderMove hstop
    obtain ⟨hstopped, hsame⟩ | ⟨-, overwrites, hsame⟩ := s.mailbox.stop_cases
    · rw [hsame]
      exact ⟨hstopped, rfl⟩
    · rw [hsame]
      exact ⟨rfl, rfl⟩
  have hinv : DecoderSound u ∧ u.mailbox.state.stopped ∧
      (u.worker.work? = none ∨ u.worker.work? = s.worker.work?) := by
    apply hrun.preserves (P := fun u => DecoderSound u ∧
      u.mailbox.state.stopped ∧ (u.worker.work? = none ∨ u.worker.work? = s.worker.work?))
    · rintro v label w ⟨hv, hvStopped, hvWork⟩ - hstep
      obtain ⟨output, hstep⟩ := decoderMachine_step.mp hstep
      obtain ⟨hwork, -⟩ := stopped_step hv.mailbox hvStopped hstep
      refine ⟨hv.step hstep, (state_step hstep).2 hvStopped, ?_⟩
      obtain hnone | hsame := hwork
      · exact .inl hnone
      · rw [hsame]
        exact hvWork
    · refine ⟨hsound, hstopped.1, .inr ?_⟩
      rw [hstopped.2]
  obtain ⟨hu, huStopped, hwork⟩ := hinv
  refine ⟨hwork, stopped_enabled hu.mailbox huStopped, ?_, ?_⟩
  · intro label v output hstep
    exact (stopped_step hu.mailbox huStopped hstep).2
  · intro hexited
    exact (hu.mailbox.exited hexited).imp And.left id

/-- A selection has been accepted, and no other action has asked since. -/
structure Served [CodecMotion M] (work : Work) (s : ThreadedDecoder P M) : Prop where
  /-- The worker does not drop it. -/
  kept : s.worker.work? = some work → s.worker.refused = false
  /-- When its decode has succeeded, the next action of the worker comes closer
  to the publication or publishes the frame, and the first poll after that
  returns it. -/
  delivered : ∀ frame, s.worker.result? = some (work, .ok frame) →
    ∃ t, decoderStep s (.worker .advance) = some (t, .nothing) ∧
      (t.worker.result? = some (work, .ok frame) ∧ t.worker.remaining < s.worker.remaining ∨
        t.shared.latest = some (frame.stamped work) ∧
          ∀ u, (decoderMachine P M).Run
              (fun _ label => label.asks = false ∧ label.isPollSlot = false)
              t u →
            ∀ v output, decoderStep u .pollSlot = some (v, output) →
              ∃ loops, output = .polled (.ok (some (ready (frame.stamped work) loops))))

theorem Serving.served [CodecMotion M] {work : Work} (h : Serving work s)
    (hs : DecoderSound s) : Served work s := by
  refine ⟨h.not_refused, ?_⟩
  intro frame hres
  have hwork := WorkerPhase.work?_of_result? hres
  obtain ⟨t, hadvance, hbox, hcrit, -, hnext⟩ := advance_result hres (h.not_refused hwork)
  have hstep : decoderStep s (.worker .advance) = some (t, .nothing) := by
    simp [decoderStep, ThreadedDecoder.workerStep, hadvance]
  refine ⟨t, hstep, ?_⟩
  obtain hcloser | ⟨hidle, hlatest⟩ := hnext
  · exact .inl hcloser
  · refine .inr ⟨hlatest, ?_⟩
    have hwait : Waiting work frame t := by
      obtain ⟨_, _, _, hearl⟩ | ⟨hpend, hfree, -, -⟩ := h.phase
      · exact absurd (hearl work hwork) (lt_irrefl _)
      · exact ⟨hbox ▸ h.generation, hbox ▸ hpend, hcrit.trans hfree, hidle, hlatest⟩
    intro u hrun v output hpoll
    have hinv : DecoderSound u ∧ Waiting work frame u := by
      apply hrun.preserves (P := fun u => DecoderSound u ∧ Waiting work frame u)
      · rintro x label y ⟨hx, hxWaiting⟩ ⟨hasks, hslot⟩ hxy
        obtain ⟨output, hxy⟩ := decoderMachine_step.mp hxy
        exact ⟨hx.step hxy, hxWaiting.step hasks hslot hxy⟩
      · exact ⟨hs.step hstep, hwait⟩
    exact hinv.2.poll hinv.1.mailbox hpoll

variable {request : SelectRequest}

theorem served [CodecMotion M] (hs : DecoderSound s)
    (hsel : decoderStep s (.select request) = some (t, .selected (.ok true)))
    (hrun : (decoderMachine P M).Run (fun _ label => label.asks = false) t u) :
    Served (s.mailbox.work request) u := by
  have hserving : Serving (s.mailbox.work request) t := by
    simp only [decoderStep] at hsel
    split_ifs at hsel
    simp only [Option.some.injEq, Prod.mk.injEq, selected.injEq] at hsel
    rw [← hsel.1]
    exact .accepted hs.mailbox hsel.2
  have hinv : DecoderSound u ∧ Serving (s.mailbox.work request) u := by
    apply hrun.preserves (P := fun u => DecoderSound u ∧ Serving (s.mailbox.work request) u)
    · rintro x label y ⟨hx, hxServing⟩ hasks hxy
      obtain ⟨output, hxy⟩ := decoderMachine_step.mp hxy
      exact ⟨hx.step hxy, hxServing.step hx.mailbox hasks hxy⟩
    · exact ⟨hs.step hsel, hserving⟩
  exact hinv.2.served hinv.1

theorem polled_current [CodecMotion M] {ready : ReadyFrame P M} (hs : MailboxSound s)
    (hstep : decoderStep s label = some (t, .polled (.ok (some ready)))) :
    ready.sourceGeneration = s.mailbox.currentGeneration := by
  generalize hout : polled (.ok (some ready)) = output at hstep
  cases decoderMove hstep with
  | @pollSlot generation hpoll =>
    obtain ⟨hgen, hhost⟩ := hs.polling generation hpoll
    have hready : (s.pollSlot generation).2 = some (.ok (some ready)) := by
      cases hres : (s.pollSlot generation).2 with
      | none =>
        rw [hres] at hout
        cases hout
      | some result =>
        rw [hres] at hout
        cases hout
        rfl
    rw [s.pollSlot_ready hready, hs.currentGeneration hhost, hgen]
  | pollHealth => exact absurd (polled.inj hout).symm (s.pollHealth_ne_ready ready)
  | _ => cases hout

theorem select_older [CodecMotion M] (hearl : request.generation < s.mailbox.state.generation)
    (hstep : decoderStep s (.select request) = some (t, output)) :
    if request.targetSeconds.isFinite then
      output = .selected (.ok false) ∧
        t = { s with mailbox := { s.mailbox with commandDrops := s.mailbox.commandDrops + 1 } }
    else t = s := by
  simp only [decoderStep] at hstep
  split_ifs at hstep with hguard
  simp only [Option.some.injEq, Prod.mk.injEq] at hstep
  obtain ⟨rfl, rfl⟩ := hstep
  by_cases hfin : request.targetSeconds.isFinite
  · simp [hfin, select, hearl, hguard.2]
  · simp [hfin, select, hguard.2.symm]

structure Delivers [CodecMotion M] (s : ThreadedDecoder P M) : Prop where
  /-- A frame that a poll returns is of the current generation. -/
  current : ∀ label t ready,
    decoderStep s label = some (t, .polled (.ok (some ready))) →
      ready.sourceGeneration = s.mailbox.currentGeneration
  /-- Every published frame is accounted for. -/
  balance : s.shared.publishedFrames =
    s.consumedFrames + s.shared.frameOverwrites +
      s.shared.staleCompletedFrames + s.shared.latest.isSome.toNat
  /-- A selection older than an accepted one is counted and changes nothing
  else. -/
  older : ∀ request t,
    decoderStep s (.select request) = some (t, .selected (.ok true)) →
      ∀ u, (decoderMachine P M).FreeRun t u →
        ∀ earlier v output, earlier.generation < request.generation →
          decoderStep u (.select earlier) = some (v, output) →
            if earlier.targetSeconds.isFinite then
              output = .selected (.ok false) ∧
                v = { u with
                  mailbox := { u.mailbox with commandDrops := u.mailbox.commandDrops + 1 } }
            else v = u
  /-- After a stop no later selection is received, and the worker exits. -/
  stopped : ∀ t output, decoderStep s .stop = some (t, output) →
    ∀ u, (decoderMachine P M).FreeRun t u → Stopping s.worker u
  /-- An accepted selection that no other follows is served. -/
  served : ∀ request t,
    decoderStep s (.select request) = some (t, .selected (.ok true)) →
      ∀ u, (decoderMachine P M).Run (fun _ label => label.asks = false) t u →
        Served (s.mailbox.work request) u

/-- A decoder returns current frames only, loses none unaccounted, ignores old
selections, ends after a stop and serves the newest selection. -/
theorem decoder_delivers [CodecMotion M] {s : ThreadedDecoder P M}
    (h : (decoderMachine P M).Reachable s) : Delivers s := by
  have hs := reachable_sound h
  refine ⟨?_, ?_, ?_, ?_, ?_⟩
  · intro label t ready hstep
    exact polled_current hs.mailbox hstep
  · have hbalance := hs.balanced.balance
    rw [SharedState.accounted] at hbalance
    omega
  · intro request t hselect u hrun earlier v output hearlier hstep
    have haccepted : t.mailbox.state.generation = request.generation := by
      simp only [decoderStep] at hselect
      split_ifs at hselect
      simp only [Option.some.injEq, Prod.mk.injEq, selected.injEq] at hselect
      rw [← hselect.1]
      exact (Serving.accepted hs.mailbox hselect.2).generation
    have hnewest : t.mailbox.state.generation ≤ u.mailbox.state.generation := by
      apply hrun.preserves (P := fun u => t.mailbox.state.generation ≤ u.mailbox.state.generation)
      · rintro x label y hx - hxy
        obtain ⟨output, hxy⟩ := decoderMachine_step.mp hxy
        exact hx.trans (state_step hxy).1
      · exact le_rfl
    exact select_older (by omega) hstep
  · intro t output hstop u hrun
    exact stopping hs hstop hrun
  · intro request t hselect u hrun
    exact served hs hselect hrun

/-- A motion that is known by its destination. -/
instance : CodecMotion CodecFrameIdentity where
  retag generation identity := { identity with sourceGeneration := generation }
  available _ := true
  destination identity := some identity

/-- A frame with an exact identity and a motion that leads to it. -/
def sampleFrame (picture : ℕ) : DecodedFrame ℕ CodecFrameIdentity where
  picture
  codecMotion := some ⟨0, picture, picture⟩
  loopGeneration := 0
  sourceGeneration := 0
  pts := some picture
  codecIdentity := some ⟨0, picture, picture⟩
  commandEpoch := 1

def sampleSeek : List (DecoderLabel ℕ CodecFrameIdentity) :=
  [.select ⟨1, 0x4000000000000000, none, false⟩, .store, .store, .worker .advance, .worker .advance,
    .worker .advance, .worker (.decode (.ok (sampleFrame 7))), .worker .advance, .worker .advance,
    .worker .advance, .worker .advance, .worker .advance]

theorem decoder_delivers_sampleSeek :
    ∃ s, (decoderMachine ℕ CodecFrameIdentity).exec (.opened (sampleFrame 0)) sampleSeek = some s ∧
      s.shared.publishedFrames = 2 ∧ Delivers s :=
  ⟨_, rfl, rfl, decoder_delivers (Machine.reachable_of_exec ⟨_, rfl⟩
    (rfl : (decoderMachine ℕ CodecFrameIdentity).exec (.opened (sampleFrame 0))
      sampleSeek = some _))⟩

end CollideOScope.Video
