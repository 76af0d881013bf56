import CollideOScope.Autopilot.Effects

/-!
# Containment of faults and stale results

Runs of the scheduler from its initial state, under every call.  The history
numbers the epochs and the preparations without wrapping, so that an issued
target has an identity even where its machine words repeat, and it lists the
commits of the current epoch and the last batch of commands.
-/

namespace CollideOScope.Autopilot

open AutopilotScheduler List Nat

/-- A prepared target with its place in the run. -/
structure Issued where
  (epochOrdinal sequenceOrdinal : ℕ)
  target : AutopilotTarget

structure SchedulerLog where
  /-- The number of epochs entered so far. -/
  epochs : ℕ
  /-- The number of targets prepared in the current epoch. -/
  prepared : ℕ
  issued : List Issued
  /-- The commits of the current epoch in order. -/
  commits : List AutopilotTarget
  /-- The last nonempty batch of commands. -/
  batch : AutopilotCommands

namespace SchedulerLog

def start : SchedulerLog := ⟨0, 0, [], [], []⟩

def emit (g : SchedulerLog) : AutopilotCommand → SchedulerLog
  | .cancelOwned _ => { g with epochs := g.epochs + 1, prepared := 0, commits := [] }
  | .prepare target =>
    { g with
      prepared := g.prepared + 1
      issued := g.issued ++ [⟨g.epochs, g.prepared, target⟩] }
  | .commit target => { g with commits := g.commits ++ [target] }

def note (g : SchedulerLog) (commands : AutopilotCommands) : SchedulerLog :=
  { commands.foldl emit g with batch := if commands = [] then g.batch else commands }

end SchedulerLog

def lastStep (commits : List AutopilotTarget) : Option ℕ := commits.getLast?.map (·.stepIndex)

def schedulerRuns : Machine (AutopilotScheduler × SchedulerLog) SchedulerCall :=
  Machine.observe { start := (· = .default), step := fun s call => some (s.call call).2 }
    .start fun g s call _ => g.note (s.call call).1

theorem schedulerRuns_step {s t : AutopilotScheduler} {g g' : SchedulerLog} {call : SchedulerCall} :
    schedulerRuns.step (s, g) call = some (t, g') ↔
      t = (s.call call).2 ∧ g' = g.note (s.call call).1 := by
  unfold schedulerRuns
  rw [Machine.observe_step_eq_some]
  constructor
  · rintro ⟨hstep, hnote⟩
    exact ⟨(Option.some.inj hstep).symm, hnote⟩
  · rintro ⟨hstep, hnote⟩
    exact ⟨congrArg some hstep.symm, hnote⟩

/-- The words of the scheduler and the ordinals of the history agree while the
epochs do not wrap. -/
structure Numbered (s : AutopilotScheduler) (g : SchedulerLog) : Prop where
  epoch_eq : s.epoch.toNat = g.epochs
  sequence_eq : s.state ≠ .faulted → s.nextSequence.toNat = g.prepared % 2 ^ 64
  issued : ∀ entry ∈ g.issued, entry.target.epoch.toNat = entry.epochOrdinal ∧
    entry.epochOrdinal ≤ g.epochs ∧
    (entry.epochOrdinal = g.epochs → entry.sequenceOrdinal < g.prepared ∧
      entry.target.sequence.toNat = entry.sequenceOrdinal % 2 ^ 64)
  expected : ∀ target, s.expected = some target → 0 < g.prepared ∧
    target.epoch = s.epoch ∧
    target.sequence.toNat = (g.prepared - 1) % 2 ^ 64

structure Visible (s : AutopilotScheduler) (g : SchedulerLog) : Prop where
  lastCommit : ∀ target prior, s.lastCommit = some (target, prior) →
    prior = lastStep g.commits.dropLast
  latest : g.commits.getLast? = s.lastCommit.map (·.1)
  active : s.state ≠ .faulted → s.activeCursor = lastStep g.commits
  batch : ∀ target, .commit target ∈ g.batch → g.commits.getLast? = some target
  lookahead : ∀ target, .prepare target ∈ g.batch → target.epoch = s.epoch

structure ContainmentInvariant (s : AutopilotScheduler) (g : SchedulerLog) : Prop where
  resumable : Resumable s
  idle : s.state.idle = true → s.expected = none
  visible : Visible s g
  numbered : g.epochs < 2 ^ 64 → Numbered s g

section

variable {s u t : AutopilotScheduler} {g : SchedulerLog}
  {target : AutopilotTarget} {lookahead : Option AutopilotTarget}

theorem toNat_succ_of_mod {word : UInt64} {n : ℕ} (h : word.toNat = n % 2 ^ 64) :
    (word + 1).toNat = (n + 1) % 2 ^ 64 := by
  rw [UInt64.toNat_add, UInt64.toNat_one, h]
  exact mod_add_mod n (2 ^ 64) 1

theorem advanceEpoch_toNat (hepoch : s.epoch.toNat = g.epochs) (hroom : g.epochs + 1 < 2 ^ 64) :
    s.advanceEpoch.epoch.toNat = g.epochs + 1 := by
  have hsucc : (s.epoch + 1).toNat = g.epochs + 1 := by
    rw [UInt64.toNat_add, UInt64.toNat_one, hepoch]
    exact mod_eq_of_lt hroom
  have hnz : ¬s.epoch + 1 = 0 := by
    intro hzero
    rw [hzero, UInt64.toNat_zero] at hsucc
    exact succ_ne_zero _ hsucc.symm
  rw [advanceEpoch, if_neg hnz]
  exact hsucc

theorem Numbered.silent (h : Numbered s g) (heff : Silent s t) : Numbered t g where
  epoch_eq := by
    rw [heff.epoch_eq]
    exact h.epoch_eq
  sequence_eq := by
    intro hst
    rw [heff.nextSequence_eq]
    exact h.sequence_eq fun hfault => hst (heff.faulted_iff.mpr hfault)
  issued := h.issued
  expected := by
    intro target htgt
    rw [heff.epoch_eq]
    rcases heff.expected_eq with hsame | hnone
    · exact h.expected target (hsame ▸ htgt)
    · exact absurd (hnone.symm.trans htgt) nofun

theorem Numbered.cancel (h : Numbered s g) (heff : Cancelled s t)
    (hroom : g.epochs + 1 < 2 ^ 64) (batch : AutopilotCommands) :
    Numbered t { g with
      epochs := g.epochs + 1
      prepared := 0
      commits := []
      batch := batch } where
  epoch_eq := by
    rw [heff.epoch_eq]
    exact advanceEpoch_toNat h.epoch_eq hroom
  sequence_eq := by
    intro hst
    rcases heff.state_eq with hfault | ⟨-, -, hzero⟩
    · exact absurd hfault hst
    · rw [hzero]
      rfl
  issued := by
    intro entry hent
    obtain ⟨hepoch, hle, -⟩ := h.issued entry hent
    exact ⟨hepoch, le_succ_of_le hle, fun hsame => absurd hsame
      (Nat.ne_of_lt (Nat.lt_succ_of_le hle))⟩
  expected := by
    intro target htgt
    exact absurd (heff.expected_eq.symm.trans htgt) nofun

theorem Numbered.prepare (h : Numbered s g) (hst : s.state ≠ .faulted) (heff : Prepared s t target)
    (hepoch : t.epoch = s.epoch) (commits : List AutopilotTarget) (batch : AutopilotCommands) :
    Numbered t { g with
      prepared := g.prepared + 1
      issued := g.issued ++ [⟨g.epochs, g.prepared, target⟩]
      commits := commits
      batch := batch } where
  epoch_eq := by
    rw [hepoch]
    exact h.epoch_eq
  sequence_eq := by
    intro _
    rw [heff.nextSequence_eq]
    exact toNat_succ_of_mod (h.sequence_eq hst)
  issued := by
    intro entry hent
    rcases mem_append.mp hent with hold | hnew
    · obtain ⟨hentryEpoch, hle, hsame⟩ := h.issued entry hold
      refine ⟨hentryEpoch, hle, ?_⟩
      intro hcur
      obtain ⟨hlt, hseq⟩ := hsame hcur
      exact ⟨lt_succ_of_lt hlt, hseq⟩
    · obtain rfl := mem_singleton.mp hnew
      refine ⟨?_, le_refl _, fun _ => ⟨lt_succ_self _, ?_⟩⟩
      · rw [heff.epoch_eq, hepoch]
        exact h.epoch_eq
      · rw [heff.sequence_eq]
        exact h.sequence_eq hst
  expected := by
    intro other hother
    obtain rfl := Option.some.inj (heff.expected_eq.symm.trans hother)
    refine ⟨succ_pos _, heff.epoch_eq, ?_⟩
    rw [heff.sequence_eq, Nat.add_sub_cancel]
    exact h.sequence_eq hst

variable (h : ContainmentInvariant s g)
include h

theorem ContainmentInvariant.silent (heff : Silent s t) : ContainmentInvariant t g where
  resumable := heff.resumable h.resumable
  idle := by
    intro hidle
    rcases heff.idle hidle with hpre | hnone
    · rcases heff.expected_eq with hsame | hnone
      · exact hsame.trans (h.idle hpre)
      · exact hnone
    · exact hnone
  visible := by
    obtain ⟨hlast, hlatest, hact, hbatch, hlookahead⟩ := h.visible
    refine ⟨?_, ?_, ?_, hbatch, ?_⟩
    · rw [heff.lastCommit_eq]
      exact hlast
    · rw [heff.lastCommit_eq]
      exact hlatest
    · intro hst
      rw [heff.activeCursor_eq]
      exact hact fun hfault => hst (heff.faulted_iff.mpr hfault)
    · rw [heff.epoch_eq]
      exact hlookahead
  numbered := fun hroom => (h.numbered hroom).silent heff

theorem ContainmentInvariant.cancel (heff : Cancelled s t) :
    ContainmentInvariant t (g.note [.cancelOwned s.epoch]) where
  resumable := heff.resumable
  idle := fun _ => heff.expected_eq
  visible := by
    refine ⟨?_, ?_, ?_, ?_, ?_⟩
    · intro target prior hlast
      exact absurd (heff.lastCommit_eq.symm.trans hlast) nofun
    · rw [heff.lastCommit_eq]
      rfl
    · intro hst
      rcases heff.state_eq with hfault | ⟨-, hact, -⟩
      · exact absurd hfault hst
      · exact hact
    · intro target htgt
      cases mem_singleton.mp htgt
    · intro target htgt
      cases mem_singleton.mp htgt
  numbered := by
    intro hroom
    have hpre : g.epochs < 2 ^ 64 := lt_of_succ_lt hroom
    exact (h.numbered hpre).cancel heff hroom _

theorem ContainmentInvariant.play (hcancel : Cancelled s u) (hstop : u.state = .stopped)
    (heff : Prepared u t target) (hepoch : t.epoch = u.epoch) (hst : t.state = .starting)
    (hact : t.activeCursor = none) (hlast : t.lastCommit = none) (hresume : Resumable t) :
    ContainmentInvariant t (g.note [.cancelOwned s.epoch, .prepare target]) where
  resumable := hresume
  idle := by
    intro hidle
    rw [hst] at hidle
    cases hidle
  visible := by
    refine ⟨?_, ?_, fun _ => hact, ?_, ?_⟩
    · intro other prior hother
      exact absurd (hlast.symm.trans hother) nofun
    · rw [hlast]
      rfl
    · intro other hother
      simp [SchedulerLog.note] at hother
    · intro other hother
      have hsame : other = target := by simpa [SchedulerLog.note] using hother
      rw [hsame]
      exact heff.epoch_eq
  numbered := by
    intro hroom
    have hpre : g.epochs < 2 ^ 64 := lt_of_succ_lt hroom
    have hnumb := (h.numbered hpre).cancel hcancel hroom g.batch
    refine hnumb.prepare ?_ heff hepoch [] _
    rw [hstop]
    nofun

theorem ContainmentInvariant.commit (heff : Committed s t target lookahead) :
    ContainmentInvariant t (g.note (.commit target :: lookahead.toList.map .prepare)) := by
  have hlive : s.state ≠ .faulted := by
    intro hfault
    have hst := heff.live
    rw [hfault] at hst
    cases hst
  have hcommits : (g.note
      (.commit target :: lookahead.toList.map .prepare)).commits = g.commits ++ [target] := by
    cases lookahead <;> rfl
  refine ⟨heff.resumable h.resumable, ?_, ⟨?_, ?_, ?_, ?_, ?_⟩, ?_⟩
  · intro hidle
    rw [heff.state_eq] at hidle
    cases hidle
  · intro other prior hother
    rw [heff.lastCommit_eq] at hother
    cases hother
    rw [hcommits, dropLast_concat]
    exact h.visible.active hlive
  · rw [hcommits, heff.lastCommit_eq]
    exact getLast?_concat
  · intro _
    rw [hcommits, heff.activeCursor_eq, lastStep, getLast?_concat]
    rfl
  · intro other hother
    have hsame : other = target := by
      cases lookahead <;> simpa [SchedulerLog.note] using hother
    rw [hcommits, hsame]
    exact getLast?_concat
  · intro other hother
    have hnext : lookahead = some other := by
      cases lookahead <;> simp_all [SchedulerLog.note]
    exact (heff.prepared other hnext).epoch_eq
  · intro hroom
    cases lookahead with
    | none =>
      obtain ⟨hepoch, hseq, hissued, -⟩ := h.numbered hroom
      obtain ⟨hexp, hnext⟩ := heff.last rfl
      refine ⟨?_, ?_, hissued, ?_⟩
      · rw [heff.epoch_eq]
        exact hepoch
      · intro _
        rw [hnext]
        exact hseq hlive
      · intro other hother
        exact absurd (hexp.symm.trans hother) nofun
    | some next =>
      have hpre : g.epochs < 2 ^ 64 := hroom
      exact (h.numbered hpre).prepare hlive (heff.prepared next rfl)
        heff.epoch_eq (g.commits ++ [target]) _

theorem ContainmentInvariant.call (call : SchedulerCall) :
    ContainmentInvariant (s.call call).2 (g.note (s.call call).1) := by
  have heff := call_effect h.resumable call
  generalize s.call call = result at heff
  cases heff with
  | @frame u _ snapshot effect =>
    have hnext := h.silent snapshot
    cases effect with
    | silent effect => exact hnext.silent effect
    | cancel effect => exact hnext.cancel effect
    | commit effect => exact hnext.commit effect
  | play cancelled stopped effect epoch_eq state_eq active_eq last_eq
      resumable =>
    exact h.play cancelled stopped effect epoch_eq state_eq active_eq last_eq resumable

end

theorem containmentInvariant_default : ContainmentInvariant .default .start where
  resumable := resumable_none rfl
  idle := fun _ => rfl
  visible := ⟨nofun, rfl, fun _ => rfl, nofun, nofun⟩
  numbered := fun _ => ⟨rfl, fun _ => rfl, nofun, nofun⟩

theorem containmentInvariant_of_run {s t : AutopilotScheduler}
    {g g' : SchedulerLog} (hrun : schedulerRuns.FreeRun (s, g) (t, g'))
    (h : ContainmentInvariant s g) : ContainmentInvariant t g' := by
  refine hrun.preserves (P := fun p => ContainmentInvariant p.1 p.2) ?_ h
  rintro ⟨s, g⟩ call ⟨t, g'⟩ hinv - hstep
  obtain ⟨rfl, rfl⟩ := schedulerRuns_step.mp hstep
  exact hinv.call call

theorem containmentInvariant_of_reachable {s : AutopilotScheduler}
    {g : SchedulerLog} (hreach : schedulerRuns.Reachable (s, g)) :
    ContainmentInvariant s g := by
  obtain ⟨⟨s₀, g₀⟩, ⟨hs, hg⟩, hrun⟩ := hreach
  dsimp only at hs hg
  rw [hs, hg] at hrun
  exact containmentInvariant_of_run hrun containmentInvariant_default

section

variable {s : AutopilotScheduler} {g : SchedulerLog} {target : AutopilotTarget}

theorem advanceFrame_stale (hstale : s.expected ≠ some target) (crossed : UInt32) (running : Bool) :
    s.advanceFrame ⟨crossed, running, .ready target⟩ = s.advanceFrame ⟨crossed, running, .pending⟩ ∧
      s.advanceFrame ⟨crossed, running, .faulted target⟩ =
        s.advanceFrame ⟨crossed, running, .pending⟩ := by
  have hready : s.acceptReadiness (.ready target) = ([], s) := if_neg hstale
  have hfault : s.acceptReadiness (.faulted target) = ([], s) := if_neg hstale
  constructor
  · rw [advanceFrame_of_quiet hready]
    rfl
  · rw [advanceFrame_of_quiet hfault]
    rfl

/-- Targets of earlier epochs and of earlier preparations are stale.  A
preparation made a multiple of `2 ^ 64` preparations ago has the words of the
last one. -/
theorem ContainmentInvariant.stale (h : ContainmentInvariant s g)
    (hepochs : g.epochs < 2 ^ 64) {entry : Issued} (hent : entry ∈ g.issued)
    (hearl : entry.epochOrdinal < g.epochs ∨
      entry.sequenceOrdinal % 2 ^ 64 ≠ (g.prepared - 1) % 2 ^ 64) :
    s.expected ≠ some entry.target := by
  intro hexp
  have hnumb := h.numbered hepochs
  obtain ⟨hepoch, -, hsame⟩ := hnumb.issued entry hent
  obtain ⟨-, hcur, hseq⟩ := hnumb.expected _ hexp
  have hord : entry.epochOrdinal = g.epochs := by
    rw [← hepoch, hcur]
    exact hnumb.epoch_eq
  rcases hearl with hlt | hother
  · exact Nat.ne_of_lt hlt hord
  · exact hother ((hsame hord).2.symm.trans hseq)

theorem epochs_le_note (g : SchedulerLog) (commands : AutopilotCommands) :
    g.epochs ≤ (g.note commands).epochs := by
  change g.epochs ≤ (commands.foldl SchedulerLog.emit g).epochs
  induction commands generalizing g with
  | nil => exact le_refl _
  | cons command commands ih =>
    refine le_trans ?_ (ih (g.emit command))
    cases command with
    | cancelOwned epoch => exact le_succ _
    | prepare target | commit target => exact le_refl _

theorem epochs_le_of_run {t : AutopilotScheduler} {g' : SchedulerLog}
    (hrun : schedulerRuns.FreeRun (s, g) (t, g')) : g.epochs ≤ g'.epochs := by
  refine hrun.preserves (P := fun p => g.epochs ≤ p.2.epochs) ?_ (le_refl _)
  rintro ⟨s, g₁⟩ call ⟨t, g₂⟩ hle - hstep
  obtain ⟨-, rfl⟩ := schedulerRuns_step.mp hstep
  exact le_trans hle (epochs_le_note g₁ _)

theorem ContainmentInvariant.not_committed_later (h : ContainmentInvariant s g)
    (hepochs : g.epochs < 2 ^ 64) (hold : target.epoch.toNat < g.epochs)
    (call : SchedulerCall) : .commit target ∉ (s.call call).1 := by
  intro hcom
  have hexp := (call_effect h.resumable call).expected_of_commit hcom
  have hnumb := h.numbered hepochs
  obtain ⟨-, hcur, -⟩ := hnumb.expected _ hexp
  rw [hcur, hnumb.epoch_eq] at hold
  exact lt_irrefl _ hold

theorem Visible.reportFault (h : Visible s g) (hlatest : g.commits.getLast? = some target) :
    (s.reportFault (.commit target)).2.activeStepIndex = lastStep g.commits.dropLast := by
  obtain ⟨⟨last, prior⟩, hlast, hsame⟩ := Option.map_eq_some_iff.mp (h.latest.symm.trans hlatest)
  dsimp only at hsame
  rw [hsame] at hlast
  rw [← h.lastCommit target prior hlast]
  simp only [AutopilotScheduler.reportFault, rollback, hlast, if_true]
  rfl

/-- Stale snapshots change nothing, and a commit that the host rejects before
any further command is undone together with the lookahead of its batch. -/
theorem autopilot_contained (hreach : schedulerRuns.Reachable (s, g))
    (hepochs : g.epochs < 2 ^ 64) :
    (∀ target crossed running, s.expected ≠ some target →
      s.advanceFrame ⟨crossed, running, .ready target⟩ =
          s.advanceFrame ⟨crossed, running, .pending⟩ ∧
        s.advanceFrame ⟨crossed, running, .faulted target⟩ =
          s.advanceFrame ⟨crossed, running, .pending⟩) ∧
      (∀ entry ∈ g.issued,
        entry.epochOrdinal < g.epochs ∨ entry.sequenceOrdinal % 2 ^ 64 ≠ (g.prepared - 1) % 2 ^ 64 →
        s.expected ≠ some entry.target) ∧
      (s.state.idle = true → s.expected = none) ∧
      ∀ target, .commit target ∈ g.batch →
        g.commits.getLast? = some target ∧
          (s.call (.fault (.commit target))).2.activeStepIndex = lastStep g.commits.dropLast ∧
          (s.call (.fault (.commit target))).2.expected = none ∧
          (s.call (.fault (.commit target))).2.dueMediaBeat = none ∧
          ∀ lookahead, .prepare lookahead ∈ g.batch → ∀ t g',
            schedulerRuns.FreeRun
              ((s.call (.fault (.commit target))).2,
                g.note (s.call (.fault (.commit target))).1) (t, g') →
            g'.epochs < 2 ^ 64 →
            ∀ call, .commit lookahead ∉ (t.call call).1 := by
  have hinv := containmentInvariant_of_reachable hreach
  refine ⟨fun target crossed running hstale =>
      advanceFrame_stale hstale crossed running,
    fun entry hentry hearlier => hinv.stale hepochs hentry hearlier,
    hinv.idle, ?_⟩
  intro target htarget
  have hlatest := hinv.visible.batch target htarget
  refine ⟨hlatest, hinv.visible.reportFault hlatest, rfl, rfl, ?_⟩
  intro lookahead hlookahead t g' hrun hroom call
  have hlater := containmentInvariant_of_run hrun (hinv.call (.fault (.commit target)))
  refine hlater.not_committed_later hroom ?_ call
  rw [hinv.visible.lookahead lookahead hlookahead, (hinv.numbered hepochs).epoch_eq]
  exact epochs_le_of_run hrun

end

/-- The host rejects the second commit of the small plan. -/
theorem autopilot_contained_pairPlan :
    ∃ s g, schedulerRuns.Reachable (s, g) ∧ s.activeStepIndex = some 1 ∧
      (s.call (.fault (.commit ⟨1, 1, 1, ⟨2, by decide⟩⟩))).2.activeStepIndex = some 0 := by
  have hstart : schedulerRuns.start (.default, .start) := ⟨rfl, rfl⟩
  have hrun : schedulerRuns.exec (.default, .start)
      [.play pairPlan pairScenes, .advanceFrame ⟨1, true, .ready ⟨1, 0, 0, ⟨1, by decide⟩⟩⟩,
        .advanceFrame ⟨1, true, .pending⟩,
        .advanceFrame ⟨2, true, .ready ⟨1, 1, 1, ⟨2, by decide⟩⟩⟩] =
      some (_, _) := rfl
  have hreach := Machine.reachable_of_exec hstart hrun
  have hcommit := (autopilot_contained hreach (by decide)).2.2.2
    ⟨1, 1, 1, ⟨2, by decide⟩⟩ (by decide)
  exact ⟨_, _, hreach, rfl, hcommit.2.1⟩

end CollideOScope.Autopilot
